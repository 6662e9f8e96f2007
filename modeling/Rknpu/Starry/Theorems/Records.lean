import Rknpu.Lib.Machine
import Rknpu.Starry.Dma

/-!
# Records of DMA memory

The list of allocations mirrors a part of the address space. It stays right under `dma_malloc` and `dma_free`; the other
calls change the mappings and do not look at the list.
-/

namespace Rknpu.Starry

/-- No page belongs to both records. -/
def NoSharedPage (r r' : DmaAllocation) : Prop :=
  ∀ page, InPages r.userVaddr.toNat r.mapSize.toNat page → ¬ InPages r'.userVaddr.toNat r'.mapSize.toNat page

instance : Std.Symm NoSharedPage := ⟨fun _ _ h page hpage' hpage => h page hpage hpage'⟩

namespace Traced

variable {s : Traced}

/-- The list is right: one record for an address, every record still mapped to its own block, and `dma_free` gives back
the block of the latest `dma_malloc` and touches nothing else. -/
structure Intact (s : Traced) : Prop where
  distinct : (s.proc.dmaAllocations.map (·.userVaddr)).Nodup
  mapped : ∀ r ∈ s.proc.dmaAllocations, ∀ i < r.mapSize.toNat / pageSize4K,
    s.proc.aspace.pages (r.userVaddr.toNat / pageSize4K + i) =
      some (.coherent (r.dmaInfo.physAddr + UInt64.ofNat (pageSize4K * i)))
  frees : ∀ r ∈ s.proc.dmaAllocations, s.latest r.userVaddr = some r.dmaInfo ∧ ∃ aspace : AddrSpace Backing,
    sysDmaFree s.proc r.userVaddr =
      (.ok (), some r.dmaInfo, { aspace, dmaAllocations := s.proc.dmaAllocations.erase r }) ∧
    ∀ page, ¬ InPages r.userVaddr.toNat r.mapSize.toNat page → aspace.pages page = s.proc.aspace.pages page
  refuses : ∀ userPtr, (∀ r ∈ s.proc.dmaAllocations, r.userVaddr ≠ userPtr) →
    (sysDmaFree s.proc userPtr).2 = (none, s.proc)

/-- The page belongs to a record. -/
def Recorded (s : Traced) (page : Nat) : Prop :=
  ∃ r ∈ s.proc.dmaAllocations, InPages r.userVaddr.toNat r.mapSize.toNat page

/-- The call keeps away from the pages of the records. -/
def Spares (s : Traced) : MemCall → Prop
  | .dmaMalloc .. | .dmaFree _ => True
  | .mmap args _ _ =>
      args.Empties s.proc.aspace → ∀ page, InPages args.start.toNat args.reserved.toNat page → ¬ s.Recorded page
  | .munmap addr length =>
      s.proc.aspace.validateRegion addr.toNat (PageSize.size4K.alignUp length).toNat = .ok () →
        ∀ page, InPages addr.toNat (PageSize.size4K.alignUp length).toNat page → ¬ s.Recorded page
  | .execve none => True
  | .execve (some _) => s.proc.dmaAllocations = []

/-! ## What always holds -/

/-- Every record is a region that the address space accepts. -/
structure Regions (s : Traced) : Prop where
  base : s.proc.aspace.base = userSpaceBase
  valid : ∀ r ∈ s.proc.dmaAllocations,
    s.proc.aspace.validateRegion r.userVaddr.toNat r.mapSize.toNat = .ok () ∧ r.mapSize.toNat ≠ 0

theorem Regions.of_bounds (h : s.Regions) {s' : Traced} (hbase : s'.proc.aspace.base = s.proc.aspace.base)
    (hsize : s'.proc.aspace.size = s.proc.aspace.size)
    (hmem : ∀ r ∈ s'.proc.dmaAllocations, r ∈ s.proc.dmaAllocations) : s'.Regions where
  base := hbase.trans h.base
  valid r hr := by
    rw [AddrSpace.validateRegion_congr hbase hsize]
    exact h.valid r (hmem r hr)

theorem Regions.ne_zero (h : s.Regions) {r : DmaAllocation} (hr : r ∈ s.proc.dmaAllocations) : r.userVaddr ≠ 0 := by
  intro he
  have hpos := AddrSpace.pos_of_valid (h.valid r hr).1 (by simp [h.base, userSpaceBase])
  simp [he] at hpos

/-- Pages of a record, counted from its start. -/
theorem Regions.recorded_iff (h : s.Regions) {page : Nat} :
    s.Recorded page ↔ ∃ r ∈ s.proc.dmaAllocations, ∃ i < r.mapSize.toNat / pageSize4K,
      page = r.userVaddr.toNat / pageSize4K + i := by
  constructor
  · rintro ⟨r, hr, hpage⟩
    exact ⟨r, hr, (AddrSpace.inPages_iff (h.valid r hr).1).mp hpage⟩
  · rintro ⟨r, hr, hpage⟩
    exact ⟨r, hr, (AddrSpace.inPages_iff (h.valid r hr).1).mpr hpage⟩

theorem Intact.of (h : s.Regions) (hdistinct : (s.proc.dmaAllocations.map (·.userVaddr)).Nodup)
    (hmapped : ∀ r ∈ s.proc.dmaAllocations, ∀ i < r.mapSize.toNat / pageSize4K,
      s.proc.aspace.pages (r.userVaddr.toNat / pageSize4K + i) =
        some (.coherent (r.dmaInfo.physAddr + UInt64.ofNat (pageSize4K * i))))
    (hlatest : ∀ r ∈ s.proc.dmaAllocations, s.latest r.userVaddr = some r.dmaInfo) : s.Intact where
  distinct := hdistinct
  mapped := hmapped
  frees r hr := by
    refine ⟨hlatest r hr, _, sysDmaFree_of_mem hdistinct hr (h.ne_zero hr) (h.valid r hr).1, fun page hpage => ?_⟩
    rw [AddrSpace.pages_setPages, if_neg hpage]
  refuses _ habsent := sysDmaFree_of_absent habsent

/-- A page of a record shows coherent memory. -/
theorem Intact.recorded (h : s.Intact) (hregions : s.Regions) {page : Nat} (hpage : s.Recorded page) :
    ∃ paddr, s.proc.aspace.pages page = some (.coherent paddr) := by
  obtain ⟨r, hr, i, hi, rfl⟩ := hregions.recorded_iff.mp hpage
  exact ⟨_, h.mapped r hr i hi⟩

/-! ## Calls that change mappings only -/

theorem sysMmap_bounds {β : Type} (a : AddrSpace β) (args : MmapArgs) (freeArea : Option UInt64)
    (backend : UInt64 → UInt64 → Except AxError (UInt64 × (Nat → β))) :
    (sysMmap a args freeArea backend).2.base = a.base ∧ (sysMmap a args freeArea backend).2.size = a.size := by
  have hemptied : (emptied a args).base = a.base ∧ (emptied a args).size = a.size := by
    unfold emptied
    split
    · exact ⟨rfl, rfl⟩
    · exact ⟨rfl, rfl⟩
  rcases sysMmap_cases a args freeArea backend with he | ⟨_, _, _, _, hmap⟩
  · rw [he]
    exact hemptied
  · obtain ⟨-, -, -, he⟩ := AddrSpace.map_cases hmap
    rw [he]
    exact hemptied

theorem sysMunmap_bounds {β : Type} (a : AddrSpace β) (addr length : UInt64) :
    (sysMunmap a addr length).2.base = a.base ∧ (sysMunmap a addr length).2.size = a.size := by
  rw [sysMunmap_cases]
  split
  · exact ⟨rfl, rfl⟩
  · exact ⟨rfl, rfl⟩

theorem loadSegments_bounds (a : AddrSpace Backing) (segments : List (Nat × Nat)) :
    (loadSegments a segments).base = a.base ∧ (loadSegments a segments).size = a.size := by
  induction segments generalizing a with
  | nil => exact ⟨rfl, rfl⟩
  | cons segment segments ih =>
      rw [loadSegments]
      split
      · rename_i a' hmap
        obtain ⟨-, -, -, rfl⟩ := AddrSpace.map_cases hmap
        exact ih _
      · exact ⟨rfl, rfl⟩

/-- Such a call is harmless exactly when the pages of the records stay as they are. -/
theorem intact_aspace_iff (hregions : s.Regions) (h : s.Intact) (a : AddrSpace Backing)
    (hbounds : a.base = s.proc.aspace.base ∧ a.size = s.proc.aspace.size) :
    ({ s with proc := { s.proc with aspace := a } } : Traced).Intact ↔
      ∀ page, s.Recorded page → a.pages page = s.proc.aspace.pages page := by
  constructor
  · intro h' page hpage
    obtain ⟨r, hr, i, hi, rfl⟩ := hregions.recorded_iff.mp hpage
    exact (h'.mapped r hr i hi).trans (h.mapped r hr i hi).symm
  · intro hsame
    refine Intact.of (hregions.of_bounds hbounds.1 hbounds.2 fun r hr => hr) h.distinct (fun r hr i hi => ?_)
      fun r hr => (h.frees r hr).1
    refine (hsame _ (hregions.recorded_iff.mpr ⟨r, hr, i, hi, rfl⟩)).trans (h.mapped r hr i hi)

/-- Emptying a range is harmless exactly when no record has a page in it. -/
theorem setPages_none_iff (hregions : s.Regions) (h : s.Intact) (start size : Nat) :
    (∀ page, s.Recorded page →
      (s.proc.aspace.setPages start size fun _ => none).pages page = s.proc.aspace.pages page) ↔
      ∀ page, InPages start size page → ¬ s.Recorded page := by
  constructor
  · intro hsame page hpage hrecorded
    obtain ⟨paddr, hpaddr⟩ := h.recorded hregions hrecorded
    have he := hsame page hrecorded
    rw [AddrSpace.pages_setPages, if_pos hpage, hpaddr] at he
    cases he
  · intro hspares page hrecorded
    rw [AddrSpace.pages_setPages, if_neg fun hpage => hspares page hpage hrecorded]

/-- Mapping something else after the place was emptied changes nothing: it finds the pages of the records taken. -/
theorem sysMmap_recorded_iff (hregions : s.Regions) (h : s.Intact) (args : MmapArgs) (freeArea : Option UInt64)
    (backend : UInt64 → UInt64 → Except AxError (UInt64 × (Nat → Backing)))
    (hother : ∀ start length len backing, backend start length = .ok (len, backing) → ∀ i, backing i = .other) :
    (∀ page, s.Recorded page →
      (sysMmap s.proc.aspace args freeArea backend).2.pages page = s.proc.aspace.pages page) ↔
      ∀ page, s.Recorded page → (emptied s.proc.aspace args).pages page = s.proc.aspace.pages page := by
  rcases sysMmap_cases s.proc.aspace args freeArea backend with he | ⟨start, length, backing, hbackend, hmap⟩
  · rw [he]
  · obtain ⟨-, -, hfree, he⟩ := AddrSpace.map_cases hmap
    refine forall_congr' fun page => imp_congr_right fun hrecorded => ?_
    obtain ⟨paddr, hpaddr⟩ := h.recorded hregions hrecorded
    rw [he, AddrSpace.pages_setPages, hpaddr]
    split
    · rename_i hpage
      rw [hfree page hpage, hother _ _ _ _ hbackend]
      simp
    · exact Iff.rfl

theorem emptied_recorded_iff (hregions : s.Regions) (h : s.Intact) (args : MmapArgs) :
    (∀ page, s.Recorded page → (emptied s.proc.aspace args).pages page = s.proc.aspace.pages page) ↔
      (args.Empties s.proc.aspace →
        ∀ page, InPages args.start.toNat args.reserved.toNat page → ¬ s.Recorded page) := by
  unfold emptied
  split
  · rename_i hempties
    rw [setPages_none_iff hregions h]
    exact ⟨fun hspares _ => hspares, fun hspares => hspares hempties⟩
  · rename_i hempties
    exact ⟨fun _ he => (hempties he).elim, fun _ _ _ => rfl⟩

theorem sysMunmap_recorded_iff (hregions : s.Regions) (h : s.Intact) (addr length : UInt64) :
    (∀ page, s.Recorded page → (sysMunmap s.proc.aspace addr length).2.pages page = s.proc.aspace.pages page) ↔
      s.Spares (.munmap addr length) := by
  rw [sysMunmap_cases]
  split
  · rename_i hvalid
    rw [setPages_none_iff hregions h]
    exact ⟨fun hspares _ => hspares, fun hspares => hspares hvalid⟩
  · rename_i hvalid
    exact ⟨fun _ he => (hvalid he).elim, fun _ _ _ => rfl⟩

/-- A record has a page, and no page of it survives `uspace.clear()`. -/
theorem loadSegments_recorded_iff (hregions : s.Regions) (h : s.Intact) (segments : List (Nat × Nat)) :
    (∀ page, s.Recorded page →
      (loadSegments s.proc.aspace.clear segments).pages page = s.proc.aspace.pages page) ↔
      s.proc.dmaAllocations = [] := by
  constructor
  · intro hsame
    rw [List.eq_nil_iff_forall_not_mem]
    intro r hr
    have hpos := AddrSpace.pages_pos_of_valid (hregions.valid r hr).1 (hregions.valid r hr).2
    have hrecorded : s.Recorded (r.userVaddr.toNat / pageSize4K + 0) :=
      hregions.recorded_iff.mpr ⟨r, hr, 0, hpos, rfl⟩
    cases loadSegments_pages ((hsame _ hrecorded).trans (h.mapped r hr 0 hpos))
  · rintro hnil page ⟨r, hr, -⟩
    rw [hnil] at hr
    cases hr

/-! ## `dma_malloc` and `dma_free` -/

theorem Regions.apply (h : s.Regions) (call : MemCall) : (s.apply call).Regions := by
  cases call with
  | dmaMalloc size dmaInfo freeArea out =>
      rw [Traced.apply]
      rcases sysDmaMalloc_cases s.proc size dmaInfo freeArea out with ⟨err, he⟩ | ⟨r, aspace, -, hmap, he⟩
      · rw [he]
        exact ⟨h.base, h.valid⟩
      · obtain ⟨hvalid, hsize, -, rfl⟩ := AddrSpace.map_cases hmap
        rw [he]
        refine ⟨h.base, fun r' hr' => ?_⟩
        rcases List.mem_append.mp hr' with hr' | hr'
        · exact h.valid r' hr'
        · rw [List.mem_singleton.mp hr']
          exact ⟨hvalid, hsize⟩
  | dmaFree userPtr =>
      obtain ⟨hmem, hbase, hsize⟩ := sysDmaFree_keeps s.proc userPtr
      exact h.of_bounds hbase hsize hmem
  | mmap args freeArea backend =>
      obtain ⟨hbase, hsize⟩ := sysMmap_bounds s.proc.aspace args freeArea _
      exact h.of_bounds hbase hsize fun r hr => hr
  | munmap addr length =>
      obtain ⟨hbase, hsize⟩ := sysMunmap_bounds s.proc.aspace addr length
      exact h.of_bounds hbase hsize fun r hr => hr
  | execve segments =>
      cases segments with
      | none => exact h
      | some segments =>
          obtain ⟨hbase, hsize⟩ := loadSegments_bounds s.proc.aspace.clear segments
          exact h.of_bounds hbase hsize fun r hr => hr

/-- A region that was free has no page of a record. -/
theorem Intact.apart_of_free (h : s.Intact) (hregions : s.Regions) {start size : Nat}
    (hfree : ∀ page, InPages start size page → s.proc.aspace.pages page = none) (page : Nat)
    (hrecorded : s.Recorded page) : ¬ InPages start size page := by
  intro hpage
  obtain ⟨paddr, hpaddr⟩ := h.recorded hregions hrecorded
  rw [hfree page hpage] at hpaddr
  cases hpaddr

/-- The new block goes to pages that were free, so to none of a record, and its address is new. -/
theorem Intact.dmaMalloc (h : s.Intact) (hregions : s.Regions) (size : UInt64) (dmaInfo : Option DmaInfo)
    (freeArea : Option UInt64) (out : Except AxError Unit) :
    (s.apply (.dmaMalloc size dmaInfo freeArea out)).Intact := by
  have hregions' := hregions.apply (.dmaMalloc size dmaInfo freeArea out)
  rw [Traced.apply] at hregions' ⊢
  rcases sysDmaMalloc_cases s.proc size dmaInfo freeArea out with ⟨err, he⟩ | ⟨r, aspace, hinfo, hmap, he⟩
  · rw [he]
    exact h
  · obtain ⟨hvalid, hsize, hfree, rfl⟩ := AddrSpace.map_cases hmap
    rw [he] at hregions' ⊢
    have hapart := h.apart_of_free hregions hfree
    have hnew : ∀ r' ∈ s.proc.dmaAllocations, r'.userVaddr ≠ r.userVaddr := by
      intro r' hr' heq
      have hpos := AddrSpace.pages_pos_of_valid (hregions.valid r' hr').1 (hregions.valid r' hr').2
      refine hapart _ (hregions.recorded_iff.mpr ⟨r', hr', 0, hpos, rfl⟩) ((AddrSpace.inPages_iff hvalid).mpr ?_)
      exact ⟨0, AddrSpace.pages_pos_of_valid hvalid hsize, by rw [heq]⟩
    refine Intact.of hregions' ?_ (fun r' hr' i hi => ?_) fun r' hr' => ?_
    · simp only [List.map_append, List.map_cons, List.map_nil]
      refine List.nodup_append.mpr ⟨h.distinct, List.nodup_singleton _, fun a ha b hb => ?_⟩
      obtain ⟨r', hr', rfl⟩ := List.mem_map.mp ha
      rw [List.mem_singleton.mp hb]
      exact hnew r' hr'
    · rcases List.mem_append.mp hr' with hr' | hr'
      · rw [AddrSpace.pages_setPages, if_neg (hapart _ (hregions.recorded_iff.mpr ⟨r', hr', i, hi, rfl⟩))]
        exact h.mapped r' hr' i hi
      · rw [List.mem_singleton.mp hr'] at hi ⊢
        rw [AddrSpace.pages_setPages, if_pos ((AddrSpace.inPages_iff hvalid).mpr ⟨i, hi, rfl⟩),
          Nat.add_sub_cancel_left]
    · dsimp only
      rcases List.mem_append.mp hr' with hr' | hr'
      · rw [Function.update_of_ne (hnew r' hr')]
        exact (h.frees r' hr').1
      · rw [List.mem_singleton.mp hr', Function.update_self]
        exact hinfo

/-- No page belongs to two records. -/
def Apart (s : Traced) : Prop := s.proc.dmaAllocations.Pairwise NoSharedPage

theorem Apart.apply (hdisjoint : s.Apart) (h : s.Intact) (hregions : s.Regions) (call : MemCall) :
    (s.apply call).Apart := by
  cases call with
  | dmaMalloc size dmaInfo freeArea out =>
      rw [Apart, Traced.apply]
      rcases sysDmaMalloc_cases s.proc size dmaInfo freeArea out with ⟨err, he⟩ | ⟨r, aspace, -, hmap, he⟩
      · rw [he]
        exact hdisjoint
      · obtain ⟨-, -, hfree, rfl⟩ := AddrSpace.map_cases hmap
        rw [he]
        refine List.pairwise_append.mpr ⟨hdisjoint, List.pairwise_singleton _ _, fun r₁ hr₁ r₂ hr₂ page hpage => ?_⟩
        rw [List.mem_singleton.mp hr₂]
        exact h.apart_of_free hregions hfree page ⟨r₁, hr₁, hpage⟩
  | dmaFree userPtr =>
      rw [Apart, Traced.apply]
      by_cases hr : ∃ r ∈ s.proc.dmaAllocations, r.userVaddr = userPtr
      · obtain ⟨r, hr, rfl⟩ := hr
        rw [sysDmaFree_of_mem h.distinct hr (hregions.ne_zero hr) (hregions.valid r hr).1]
        exact hdisjoint.sublist List.erase_sublist
      · rw [h.refuses userPtr fun r hr' he => hr ⟨r, hr', he⟩]
        exact hdisjoint
  | mmap args freeArea backend => exact hdisjoint
  | munmap addr length => exact hdisjoint
  | execve segments =>
      cases segments with
      | none => exact hdisjoint
      | some segments => exact hdisjoint

/-- The records that stay have other pages than the one that goes. -/
theorem Intact.dmaFree (h : s.Intact) (hregions : s.Regions) (hdisjoint : s.Apart) (userPtr : UInt64) :
    (s.apply (.dmaFree userPtr)).Intact := by
  have hregions' := hregions.apply (.dmaFree userPtr)
  rw [Traced.apply] at hregions' ⊢
  by_cases hr : ∃ r ∈ s.proc.dmaAllocations, r.userVaddr = userPtr
  · obtain ⟨r, hr, rfl⟩ := hr
    rw [sysDmaFree_of_mem h.distinct hr (hregions.ne_zero hr) (hregions.valid r hr).1] at hregions' ⊢
    have hnodup : s.proc.dmaAllocations.Nodup := h.distinct.of_map
    refine Intact.of hregions' (h.distinct.sublist (List.erase_sublist.map _)) (fun r' hr' i hi => ?_)
      fun r' hr' => (h.frees r' (List.mem_of_mem_erase hr')).1
    obtain ⟨hne, hmem⟩ := hnodup.mem_erase_iff.mp hr'
    have hpage := (AddrSpace.inPages_iff (hregions.valid r' hmem).1).mpr ⟨i, hi, rfl⟩
    have hother : NoSharedPage r' r := hdisjoint.forall hmem hr hne
    rw [AddrSpace.pages_setPages, if_neg (hother _ hpage)]
    exact h.mapped r' hmem i hi
  · rw [h.refuses userPtr fun r hr' he => hr ⟨r, hr', he⟩]
    exact h

theorem intact_apply_iff (hregions : s.Regions) (hdisjoint : s.Apart) (h : s.Intact) (call : MemCall) :
    (s.apply call).Intact ↔ s.Spares call := by
  cases call with
  | dmaMalloc size dmaInfo freeArea out =>
      simp only [Spares, iff_true]
      exact h.dmaMalloc hregions size dmaInfo freeArea out
  | dmaFree userPtr =>
      simp only [Spares, iff_true]
      exact h.dmaFree hregions hdisjoint userPtr
  | mmap args freeArea backend =>
      refine (intact_aspace_iff hregions h _ (sysMmap_bounds _ _ _ _)).trans ?_
      refine (sysMmap_recorded_iff hregions h args freeArea _ ?_).trans (emptied_recorded_iff hregions h args)
      intro start length len backing hbackend i
      cases hlen : backend start length with
      | error err =>
          rw [hlen] at hbackend
          cases hbackend
      | ok n =>
          rw [hlen] at hbackend
          cases hbackend
          rfl
  | munmap addr length =>
      refine (intact_aspace_iff hregions h _ (sysMunmap_bounds _ _ _)).trans ?_
      exact sysMunmap_recorded_iff hregions h addr length
  | execve segments =>
      cases segments with
      | none =>
          simp only [Spares, iff_true]
          exact h
      | some segments =>
          refine (intact_aspace_iff hregions h _ (loadSegments_bounds s.proc.aspace.clear segments)).trans ?_
          exact loadSegments_recorded_iff hregions h segments

end Traced

/-- In a sequence of calls the records stay right, exactly when no `munmap` and no replacing `mmap` meets a page of a
record and `execve` empties the address space only when there is no record. -/
theorem dma_records_intact_iff (size : Nat) (pages : Nat → Option Backing) (calls : List MemCall) :
    (∀ before after, calls = before ++ after → ((Traced.init size pages).run before).Intact) ↔
      ∀ before call after, calls = before ++ call :: after → ((Traced.init size pages).run before).Spares call := by
  have hregions : (Traced.init size pages).Regions := ⟨rfl, nofun⟩
  have hintact : (Traced.init size pages).Intact := Traced.Intact.of hregions List.nodup_nil nofun nofun
  exact Machine.foldl_forall_iff (I := fun s : Traced => s.Regions ∧ s.Apart) ⟨hregions, List.Pairwise.nil⟩ hintact
    (fun s call h hintact => ⟨h.1.apply call, h.2.apply hintact h.1 call⟩)
    (fun s call h hintact => Traced.intact_apply_iff h.1 h.2 hintact call) calls

/-- Two blocks of the coherent allocator. -/
def firstBlock : DmaInfo := ⟨0x200000, 0x200000⟩
def secondBlock : DmaInfo := ⟨0x300000, 0x300000⟩

/-- The process unmaps its block itself and allocates again. Two records have one address, and `dma_free` gives back the
block that is not mapped there. -/
theorem dma_free_releases_older_block : ∃ s : Traced,
    s = (Traced.init 0x7ffffffff000 fun _ => none).run
      [.dmaMalloc 0x1000 (some firstBlock) (some 0x1000) (.ok ()), .munmap 0x1000 0x1000,
        .dmaMalloc 0x1000 (some secondBlock) (some 0x1000) (.ok ())] ∧
    s.proc.dmaAllocations.map (·.userVaddr) = [0x1000, 0x1000] ∧
    s.proc.aspace.pages 1 = some (.coherent 0x300000) ∧ s.latest 0x1000 = some secondBlock ∧
    (sysDmaFree s.proc 0x1000).2.1 = some firstBlock :=
  ⟨_, rfl, by decide +kernel, by decide +kernel, by decide +kernel, by decide +kernel⟩

end Rknpu.Starry
