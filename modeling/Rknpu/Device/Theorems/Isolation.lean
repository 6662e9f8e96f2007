import Rknpu.Device.Theorems.Handles
import Rknpu.Lib.Arith

/-!
# Isolation of mappings

`mmap` rounds the range of a buffer up to whole pages, and maps a page even for a buffer without any byte. The DMA
allocator is assumed to return page-aligned buffers of the requested length that do not overlap.
-/

namespace Rknpu.Device

/-! ## The allocator -/

/-- The byte is in the memory that the allocator has reserved for the buffer. -/
def DVec.Owns (data : DVec) (x : Nat) : Prop := data.busAddr.toNat ≤ x ∧ x < data.busAddr.toNat + data.len.toNat

/-- A buffer as the allocator returns it for this request while the pool holds its buffers. -/
structure Granted (g : GemPool) (args : RknpuMemCreate) (data : DVec) : Prop where
  len : data.len = args.size
  aligned : data.busAddr.toNat % 4096 = 0
  fits : data.busAddr.toNat + data.len.toNat ≤ 2 ^ 64
  disjoint : ∀ (handle : UInt32) (data' : DVec), g.pool[handle]? = some data' → ∀ x, ¬ (data.Owns x ∧ data'.Owns x)

/-- Every create of the sequence is answered so. -/
def AllGranted (acts : List GemAct) : Prop :=
  ∀ before args data after, acts = before ++ .create args data :: after → Granted (GemPool.run before) args data

/-- What the allocator promises of the live buffers. -/
structure Separated (g : GemPool) : Prop where
  aligned : ∀ (handle : UInt32) (data : DVec), g.pool[handle]? = some data →
    data.busAddr.toNat % 4096 = 0 ∧ data.busAddr.toNat + data.len.toNat ≤ 2 ^ 64
  disjoint : ∀ (handle handle' : UInt32) (data data' : DVec), handle ≠ handle' → g.pool[handle]? = some data →
    g.pool[handle']? = some data' → ∀ x, ¬ (data.Owns x ∧ data'.Owns x)

theorem Separated.insert {g : GemPool} {args : RknpuMemCreate} {data : DVec} (h : Separated g)
    (hgranted : Granted g args data) : Separated (g.apply (.create args data)) := by
  have hlookup : ∀ (handle : UInt32) (data' : DVec), (g.apply (.create args data)).pool[handle]? = some data' →
      (handle = g.handleCounter ∧ data' = data) ∨ (handle ≠ g.handleCounter ∧ g.pool[handle]? = some data') := by
    intro handle data' hlive
    rw [GemPool.pool_apply_create] at hlive
    by_cases he : g.handleCounter = handle
    · subst he
      rw [Std.ExtTreeMap.getElem?_insert_self] at hlive
      cases hlive
      exact .inl ⟨rfl, rfl⟩
    · rw [Std.ExtTreeMap.getElem?_insert_of_ne he] at hlive
      exact .inr ⟨Ne.symm he, hlive⟩
  refine ⟨fun handle data' hlive => ?_, fun handle handle' d d' hne hlive hlive' x => ?_⟩
  · rcases hlookup handle data' hlive with ⟨_, rfl⟩ | ⟨_, hold⟩
    · exact ⟨hgranted.aligned, hgranted.fits⟩
    · exact h.aligned handle data' hold
  · rcases hlookup handle d hlive with ⟨rfl, rfl⟩ | ⟨_, hold⟩
    · rcases hlookup handle' d' hlive' with ⟨rfl, rfl⟩ | ⟨_, hold'⟩
      · exact (hne rfl).elim
      · exact hgranted.disjoint handle' d' hold' x
    · rcases hlookup handle' d' hlive' with ⟨rfl, rfl⟩ | ⟨_, hold'⟩
      · exact fun hx => hgranted.disjoint handle d hold x hx.symm
      · exact h.disjoint handle handle' d d' hne hold hold' x

theorem Separated.erase {g : GemPool} (h : Separated g) (args : RknpuMemDestroy) :
    Separated (g.apply (.destroy args)) := by
  have hlookup : ∀ (handle : UInt32) (data : DVec), (g.apply (.destroy args)).pool[handle]? = some data → g.pool[handle]? = some data := by
    intro handle data hlive
    rw [GemPool.apply, GemPool.pool_memDestroy] at hlive
    by_cases he : args.handle = handle
    · subst he
      rw [Std.ExtTreeMap.getElem?_erase_self] at hlive
      cases hlive
    · rwa [Std.ExtTreeMap.getElem?_erase_of_ne he] at hlive
  exact ⟨fun handle data hlive => h.aligned handle data (hlookup _ _ hlive),
    fun handle handle' d d' hne hlive hlive' => h.disjoint handle handle' d d' hne (hlookup _ _ hlive) (hlookup _ _ hlive')⟩

theorem AllGranted.separated {acts : List GemAct} (h : AllGranted acts) : Separated (GemPool.run acts) := by
  induction acts using List.reverseRecOn with
  | nil =>
      have hempty : ∀ handle : UInt32, (GemPool.run []).pool[handle]? = none := fun _ => Std.ExtTreeMap.getElem?_empty
      refine ⟨fun handle data hlive => ?_, fun handle _ data _ _ hlive => ?_⟩
      · rw [hempty] at hlive
        cases hlive
      · rw [hempty] at hlive
        cases hlive
  | append_singleton acts a ih =>
      have hbefore := ih fun before args data after he => h before args data (after ++ [a]) (by simp [he])
      rw [GemPool.run_append_singleton]
      cases a with
      | create args data => exact hbefore.insert (h acts args data [] rfl)
      | destroy args => exact hbefore.erase args

/-! ## Pages -/

theorem toNat_alignUp (size : UInt64) : (alignUp size).toNat = (size.toNat + 4095) % 2 ^ 64 / 4096 * 4096 := by
  have hmask : (~~~(pageSize - 1)).toNat = (2 ^ 52 - 1) * 2 ^ 12 := by decide
  have hpage : (pageSize - 1).toNat = 4095 := by decide
  rw [alignUp, UInt64.toNat_and, UInt64.toNat_add, hmask, hpage]
  exact Nat.and_high_bits (k := 12) (m := 52) (Nat.mod_lt _ (by decide))

namespace DVec

variable {data data' : DVec}

theorem pages_last (data : DVec) : data.pages.last.toNat =
    (data.busAddr.toNat + if data.len.toNat < 4096 then 4096 else (data.len.toNat + 4095) % 2 ^ 64 / 4096 * 4096) %
      2 ^ 64 := by
  simp only [pages, UInt64.toNat_add]
  have hlt : data.len < pageSize ↔ data.len.toNat < 4096 := Iff.rfl
  by_cases h : data.len.toNat < 4096
  · rw [if_pos h, if_pos (hlt.mpr h)]
    rfl
  · rw [if_neg h, if_neg (mt hlt.mp h), toNat_alignUp]

theorem contains_iff {x : UInt64} :
    data.pages.Contains x ↔ data.busAddr.toNat ≤ x.toNat ∧ x.toNat < data.pages.last.toNat := Iff.rfl

/-- An address in the mapping of a buffer that has some byte is in a page that starts inside the buffer. -/
theorem owns_of_contains (haligned : data.busAddr.toNat % 4096 = 0)
    (hfits : data.busAddr.toNat + data.len.toNat ≤ 2 ^ 64) (hlen : data.len ≠ 0) {x : UInt64}
    (h : data.pages.Contains x) : data.Owns (x.toNat / 4096 * 4096) := by
  rw [contains_iff, pages_last] at h
  have hpos : data.len.toNat ≠ 0 := by
    rw [ne_eq, ← UInt64.toNat_inj] at hlen
    exact hlen
  unfold Owns
  split at h <;> omega

/-- The mapping of a buffer without bytes is the page it starts at. -/
theorem busAddr_of_contains (haligned : data.busAddr.toNat % 4096 = 0) (hlen : data.len = 0) {x : UInt64}
    (h : data.pages.Contains x) : data.busAddr.toNat = x.toNat / 4096 * 4096 := by
  rw [contains_iff, pages_last, hlen] at h
  simp only [UInt64.toNat_zero, show 0 < 4096 by omega, if_true] at h
  omega

/-- A mapping contains an address exactly when it contains the start of its page. -/
theorem contains_page (haligned : data.busAddr.toNat % 4096 = 0) {x y : UInt64}
    (hpage : y.toNat = x.toNat / 4096 * 4096) (h : data.pages.Contains x) : data.pages.Contains y := by
  rw [contains_iff, pages_last] at h ⊢
  omega

theorem contains_busAddr (haligned : data.busAddr.toNat % 4096 = 0) (hlen : data.len = 0)
    (haligned' : data'.busAddr.toNat % 4096 = 0) (h : data'.pages.Contains data.busAddr) :
    data.pages.Contains data.busAddr := by
  rw [contains_iff, pages_last] at h
  rw [contains_iff, pages_last, hlen]
  simp only [UInt64.toNat_zero, show 0 < 4096 by omega, if_true]
  split at h <;> omega

end DVec

/-- The mappings of two live handles overlap exactly when one buffer was created without bytes and starts in a page that
is mapped for the other. -/
theorem mmap_overlap_iff {acts : List GemAct} (hgranted : AllGranted acts) {offset offset' : UInt64}
    (hne : mmapHandle offset ≠ mmapHandle offset') {r r' : PhysAddrRange}
    (hmap : (GemPool.run acts).mmap offset = some r) (hmap' : (GemPool.run acts).mmap offset' = some r') :
    (∃ x, r.Contains x ∧ r'.Contains x) ↔
      ∃ data data', (GemPool.run acts).pool[mmapHandle offset]? = some data ∧
        (GemPool.run acts).pool[mmapHandle offset']? = some data' ∧
        (data.len = 0 ∧ r'.Contains data.busAddr ∨ data'.len = 0 ∧ r.Contains data'.busAddr) := by
  have hsep := hgranted.separated
  rw [GemPool.mmap_eq] at hmap hmap'
  obtain ⟨data, hlive, rfl⟩ := Option.map_eq_some_iff.mp hmap
  obtain ⟨data', hlive', rfl⟩ := Option.map_eq_some_iff.mp hmap'
  obtain ⟨haligned, hfits⟩ := hsep.aligned _ _ hlive
  obtain ⟨haligned', hfits'⟩ := hsep.aligned _ _ hlive'
  constructor
  · rintro ⟨x, hx, hx'⟩
    refine ⟨data, data', hlive, hlive', ?_⟩
    by_cases hlen : data.len = 0
    · exact .inl ⟨hlen, DVec.contains_page haligned' (DVec.busAddr_of_contains haligned hlen hx) hx'⟩
    · by_cases hlen' : data'.len = 0
      · exact .inr ⟨hlen', DVec.contains_page haligned (DVec.busAddr_of_contains haligned' hlen' hx') hx⟩
      · have howns := DVec.owns_of_contains haligned hfits hlen hx
        have howns' := DVec.owns_of_contains haligned' hfits' hlen' hx'
        exact (hsep.disjoint _ _ _ _ hne hlive hlive' _ ⟨howns, howns'⟩).elim
  · rintro ⟨d, d', hd, hd', hcase⟩
    cases hlive.symm.trans hd
    cases hlive'.symm.trans hd'
    rcases hcase with ⟨hlen, hx⟩ | ⟨hlen, hx⟩
    · exact ⟨_, DVec.contains_busAddr haligned hlen haligned' hx, hx⟩
    · exact ⟨_, hx, DVec.contains_busAddr haligned' hlen haligned hx⟩

/-- A request for so many bytes, and a buffer for it. -/
def request (size : UInt64) : RknpuMemCreate := { (default : RknpuMemCreate) with size }

def bufferAt (block : Nat) (busAddr len : UInt64) : DVec where
  block := block
  busAddr := busAddr
  ptr := busAddr
  len := len

def createPair (data data' : DVec) : List GemAct :=
  [.create (request data.len) data, .create (request data'.len) data']

theorem allGranted_pair {data data' : DVec} (haligned : data.busAddr.toNat % 4096 = 0)
    (hfits : data.busAddr.toNat + data.len.toNat ≤ 2 ^ 64) (haligned' : data'.busAddr.toNat % 4096 = 0)
    (hfits' : data'.busAddr.toNat + data'.len.toNat ≤ 2 ^ 64) (hdisjoint : ∀ x, ¬ (data'.Owns x ∧ data.Owns x)) :
    AllGranted (createPair data data') := by
  rintro (_ | ⟨a, _ | ⟨b, before⟩⟩) args d after he
  · cases he
    refine ⟨rfl, haligned, hfits, fun handle d' hlive => ?_⟩
    obtain ⟨before, args', mid, hsplit, _⟩ := GemPool.origin hlive
    simp at hsplit
  · cases he
    refine ⟨rfl, haligned', hfits', fun handle d' hlive => ?_⟩
    obtain ⟨before, args', mid, hsplit, _⟩ := GemPool.origin hlive
    have hmem : GemAct.create args' d' ∈ [GemAct.create (request data.len) data] := by
      rw [hsplit]
      exact List.mem_append_right _ List.mem_cons_self
    cases List.mem_singleton.mp hmem
    exact hdisjoint
  · simp [createPair] at he

theorem mmap_pair (data data' : DVec) : (GemPool.run (createPair data data')).mmap 0x1000 = some data.pages ∧
    (GemPool.run (createPair data data')).mmap 0x2000 = some data'.pages := by
  have hfirst : (GemPool.run (createPair data data')).pool[(1 : UInt32)]? = some data :=
    @GemPool.pool_run [] [.create (request data'.len) data'] _ _ (by simp [NoDestroy]) (by simp [creates, GemAct.isCreate])
  have hsecond : (GemPool.run (createPair data data')).pool[(2 : UInt32)]? = some data' :=
    @GemPool.pool_run [.create (request data.len) data] [] _ _ (by simp [NoDestroy]) (by decide)
  rw [GemPool.mmap_eq, GemPool.mmap_eq, show mmapHandle 0x1000 = 1 by decide, show mmapHandle 0x2000 = 2 by decide,
    hfirst, hsecond]
  exact ⟨rfl, rfl⟩

/-- A buffer of 100 bytes, and one that starts at the next page. -/
theorem mmap_overlap_iff_adjacent : ∃ acts r r', AllGranted acts ∧
    (GemPool.run acts).mmap 0x1000 = some r ∧ (GemPool.run acts).mmap 0x2000 = some r' ∧
    ((∃ x, r.Contains x ∧ r'.Contains x) ↔ ∃ data data', (GemPool.run acts).pool[mmapHandle 0x1000]? = some data ∧
      (GemPool.run acts).pool[mmapHandle 0x2000]? = some data' ∧
      (data.len = 0 ∧ r'.Contains data.busAddr ∨ data'.len = 0 ∧ r.Contains data'.busAddr)) := by
  have hgranted : AllGranted (createPair (bufferAt 0 0x1000 100) (bufferAt 1 0x2000 4096)) := by
    refine allGranted_pair (by decide) (by decide) (by decide) (by decide) ?_
    rintro x ⟨⟨hlow, _⟩, _, hhigh⟩
    simp only [bufferAt, UInt64.reduceToNat] at hlow hhigh
    omega
  obtain ⟨hmap, hmap'⟩ := mmap_pair (bufferAt 0 0x1000 100) (bufferAt 1 0x2000 4096)
  exact ⟨_, _, _, hgranted, hmap, hmap', mmap_overlap_iff hgranted (by decide) hmap hmap'⟩

/-- A buffer without bytes is given the address of another one, and both handles map the same page. -/
theorem mmap_overlap_empty : ∃ acts r r' x, AllGranted acts ∧
    (GemPool.run acts).mmap 0x1000 = some r ∧ (GemPool.run acts).mmap 0x2000 = some r' ∧
    r.Contains x ∧ r'.Contains x := by
  have hgranted : AllGranted (createPair (bufferAt 0 0x1000 4096) (bufferAt 1 0x1000 0)) := by
    refine allGranted_pair (by decide) (by decide) (by decide) (by decide) ?_
    rintro x ⟨⟨hlow, hhigh⟩, _⟩
    simp only [bufferAt, UInt64.reduceToNat] at hlow hhigh
    omega
  obtain ⟨hmap, hmap'⟩ := mmap_pair (bufferAt 0 0x1000 4096) (bufferAt 1 0x1000 0)
  refine ⟨_, _, _, 0x1000, hgranted, hmap, hmap', ?_, ?_⟩
  · exact ⟨by decide, by decide⟩
  · exact ⟨by decide, by decide⟩

end Rknpu.Device
