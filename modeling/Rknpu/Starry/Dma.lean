import Rknpu.Starry.AddrSpace

/-!
# DMA memory of a process

A translation of `sys_dma_malloc`, `sys_dma_free` and of the list of allocations in `ProcessData`, with the other calls
that change the same mappings. The coherent allocator, the search for a free area and the files behind a mapping are
outside, so their answers are arguments. No file maps coherent memory.
-/

namespace Rknpu.Starry

/-! ## State -/

/-- What a user page shows: coherent memory at a physical address, or something else. -/
inductive Backing where
  | coherent (paddr : UInt64)
  | other
deriving DecidableEq, Repr

/-- A block of the coherent allocator. -/
structure DmaInfo where
  /-- `virt_to_phys` of its address in the kernel. -/
  physAddr : UInt64
  busAddr : UInt64
deriving DecidableEq, Repr

structure DmaAllocation where
  userVaddr : UInt64
  mapSize : UInt64
  dmaInfo : DmaInfo
deriving DecidableEq, Repr

structure ProcessData where
  aspace : AddrSpace Backing
  dmaAllocations : List DmaAllocation

/-! ## `dma_malloc` -/

def alignedDmaSize (size : UInt64) : Except AxError UInt64 :=
  if size = 0 then .error .invalidInput
  else if size.toNat + (pageSize4K - 1) < 2 ^ 64 then .ok (PageSize.size4K.alignUp size)
  else .error .noMemory

/-- The largest size that `Layout::from_size_align` accepts for pages. -/
def maxLayoutSize : Nat := 2 ^ 63 - pageSize4K

def AddrSpace.mapLinear (a : AddrSpace Backing) (start : Nat) (paddr : UInt64) (size : Nat) :
    Except AxError (AddrSpace Backing) := do
  a.validateRegion start size
  if paddr &&& 0xfff ≠ 0 then .error .invalidInput
  else a.map start size fun i => .coherent (paddr + UInt64.ofNat (pageSize4K * i))

/-- `out` is the result of looking up the pointer for the bus address. The rollback logs an error and goes on. -/
def sysDmaMalloc (p : ProcessData) (size : UInt64) (dmaInfo : Option DmaInfo) (freeArea : Option UInt64)
    (out : Except AxError Unit) : Except AxError UInt64 × ProcessData :=
  match alignedDmaSize size with
  | .error err => (.error err, p)
  | .ok mapSize =>
      if maxLayoutSize < mapSize.toNat then (.error .invalidInput, p)
      else
        match dmaInfo, freeArea with
        | none, _ => (.error .noMemory, p)
        | some _, none => (.error .noMemory, p)
        | some dmaInfo, some start =>
            match p.aspace.mapLinear start.toNat dmaInfo.physAddr mapSize.toNat with
            | .error err => (.error err, p)
            | .ok aspace =>
                match out with
                | .ok () =>
                    (.ok start,
                      { aspace, dmaAllocations := p.dmaAllocations ++ [{ userVaddr := start, mapSize, dmaInfo }] })
                | .error err =>
                    match aspace.unmap start.toNat mapSize.toNat with
                    | .ok aspace => (.error err, { p with aspace })
                    | .error _ => (.error err, { p with aspace })

/-! ## `dma_free` -/

/-- Whether a record was found, the block that was given back, and the process. A record whose mapping cannot be removed
goes to the end of the list. -/
def ProcessData.releaseDmaAllocation (p : ProcessData) (userVaddr : UInt64) :
    Except AxError Bool × Option DmaInfo × ProcessData :=
  match p.dmaAllocations.find? (·.userVaddr = userVaddr) with
  | none => (.ok false, none, p)
  | some allocation =>
      let dmaAllocations := p.dmaAllocations.eraseP (·.userVaddr = userVaddr)
      match p.aspace.unmap allocation.userVaddr.toNat allocation.mapSize.toNat with
      | .error err => (.error err, none, { p with dmaAllocations := dmaAllocations ++ [allocation] })
      | .ok aspace => (.ok true, some allocation.dmaInfo, { aspace, dmaAllocations })

def sysDmaFree (p : ProcessData) (userPtr : UInt64) : Except AxError Unit × Option DmaInfo × ProcessData :=
  if userPtr = 0 then (.error .invalidInput, none, p)
  else
    match p.releaseDmaAllocation userPtr with
    | (.error err, block, p) => (.error err, block, p)
    | (.ok false, block, p) => (.error .badAddress, block, p)
    | (.ok true, block, p) => (.ok (), block, p)

/-! ## `execve` -/

/-- The segments, the stack and the heap of the new program, up to the first that cannot be mapped. -/
def loadSegments (a : AddrSpace Backing) : List (Nat × Nat) → AddrSpace Backing
  | [] => a
  | (start, size) :: segments =>
      match a.map start size fun _ => .other with
      | .ok a => loadSegments a segments
      | .error _ => a

/-- `none` is a program that is given up before `uspace.clear()`. -/
def sysExecve (p : ProcessData) : Option (List (Nat × Nat)) → ProcessData
  | none => p
  | some segments => { p with aspace := loadSegments p.aspace.clear segments }

/-! ## Sequences of calls -/

inductive MemCall where
  | dmaMalloc (size : UInt64) (dmaInfo : Option DmaInfo) (freeArea : Option UInt64) (out : Except AxError Unit)
  | dmaFree (userPtr : UInt64)
  | mmap (args : MmapArgs) (freeArea : Option UInt64) (backend : UInt64 → UInt64 → Except AxError UInt64)
  | munmap (addr length : UInt64)
  | execve (segments : Option (List (Nat × Nat)))

/-- A process, and for every address the block of the latest `dma_malloc` that returned it. -/
structure Traced where
  proc : ProcessData
  latest : UInt64 → Option DmaInfo

def Traced.apply (s : Traced) : MemCall → Traced
  | .dmaMalloc size dmaInfo freeArea out =>
      let (r, proc) := sysDmaMalloc s.proc size dmaInfo freeArea out
      { proc, latest :=
          match r with
          | .ok userPtr => Function.update s.latest userPtr dmaInfo
          | .error _ => s.latest }
  | .dmaFree userPtr => { s with proc := (sysDmaFree s.proc userPtr).2.2 }
  | .mmap args freeArea backend =>
      { s with proc := { s.proc with aspace :=
          (sysMmap s.proc.aspace args freeArea fun start length =>
            (backend start length).map fun length => (length, fun _ => .other)).2 } }
  | .munmap addr length => { s with proc := { s.proc with aspace := (sysMunmap s.proc.aspace addr length).2 } }
  | .execve segments => { s with proc := sysExecve s.proc segments }

def userSpaceBase : Nat := 0x1000

/-- A process that has not asked for DMA memory yet. The size of the space depends on the architecture. -/
def Traced.init (size : Nat) (pages : Nat → Option Backing) : Traced where
  proc := { aspace := { base := userSpaceBase, size, pages }, dmaAllocations := [] }
  latest := fun _ => none

def Traced.run (s : Traced) (calls : List MemCall) : Traced := calls.foldl Traced.apply s

/-! ## What the operations leave -/

section

variable {p : ProcessData}

theorem AddrSpace.mapLinear_cases {a a' : AddrSpace Backing} {start size : Nat} {paddr : UInt64}
    (h : a.mapLinear start paddr size = .ok a') :
    a.map start size (fun i => .coherent (paddr + UInt64.ofNat (pageSize4K * i))) = .ok a' := by
  unfold mapLinear at h
  cases hvalid : a.validateRegion start size with
  | error err =>
      rw [hvalid] at h
      cases h
  | ok =>
      rw [hvalid] at h
      change (if paddr &&& 0xfff ≠ 0 then _ else _) = _ at h
      split at h
      · cases h
      · exact h

/-- `dma_malloc` fails and leaves the process as it was, or maps the block and records it. -/
theorem sysDmaMalloc_cases (p : ProcessData) (size : UInt64) (dmaInfo : Option DmaInfo) (freeArea : Option UInt64)
    (out : Except AxError Unit) :
    (∃ err, sysDmaMalloc p size dmaInfo freeArea out = (.error err, p)) ∨
    ∃ (r : DmaAllocation) (aspace : AddrSpace Backing), dmaInfo = some r.dmaInfo ∧
      p.aspace.map r.userVaddr.toNat r.mapSize.toNat
        (fun i => .coherent (r.dmaInfo.physAddr + UInt64.ofNat (pageSize4K * i))) = .ok aspace ∧
      sysDmaMalloc p size dmaInfo freeArea out =
        (.ok r.userVaddr, { aspace, dmaAllocations := p.dmaAllocations ++ [r] }) := by
  unfold sysDmaMalloc
  split
  · exact .inl ⟨_, rfl⟩
  · rename_i mapSize _
    split
    · exact .inl ⟨_, rfl⟩
    · split
      · exact .inl ⟨_, rfl⟩
      · exact .inl ⟨_, rfl⟩
      · rename_i info start
        split
        · exact .inl ⟨_, rfl⟩
        · rename_i aspace hmap
          have hmap' := AddrSpace.mapLinear_cases hmap
          split
          · exact .inr ⟨⟨start, mapSize, info⟩, aspace, rfl, hmap', rfl⟩
          · -- the rollback
            rw [AddrSpace.unmap_map hmap']
            exact .inl ⟨_, rfl⟩

/-- No record, nothing released. -/
theorem sysDmaFree_of_absent {userPtr : UInt64} (h : ∀ r ∈ p.dmaAllocations, r.userVaddr ≠ userPtr) :
    (sysDmaFree p userPtr).2 = (none, p) := by
  have hnone : p.dmaAllocations.find? (·.userVaddr = userPtr) = none := by
    simpa using h
  unfold sysDmaFree ProcessData.releaseDmaAllocation
  rw [hnone]
  split <;> rfl

/-- A list whose entries have different keys, searched by key. -/
theorem find?_of_nodup_map {α β : Type} [DecidableEq β] {f : α → β} {l : List α} {x : α} (h : (l.map f).Nodup)
    (hx : x ∈ l) : l.find? (fun y => decide (f y = f x)) = some x := by
  induction l with
  | nil => cases hx
  | cons y l ih =>
      rw [List.map_cons, List.nodup_cons] at h
      rcases List.mem_cons.mp hx with rfl | hx
      · simp
      · have hne : f y ≠ f x := fun he => h.1 (he ▸ List.mem_map_of_mem hx)
        simp [hne, ih h.2 hx]

theorem eraseP_of_nodup_map {α β : Type} [DecidableEq α] [DecidableEq β] {f : α → β} {l : List α} {x : α}
    (h : (l.map f).Nodup) (hx : x ∈ l) : l.eraseP (fun y => decide (f y = f x)) = l.erase x := by
  induction l with
  | nil => cases hx
  | cons y l ih =>
      rw [List.map_cons, List.nodup_cons] at h
      rcases List.mem_cons.mp hx with rfl | hx
      · simp
      · have hne : f y ≠ f x := fun he => h.1 (he ▸ List.mem_map_of_mem hx)
        have hne' : y ≠ x := fun he => hne (he ▸ rfl)
        simp [hne, hne', ih h.2 hx]

/-- With one record for the address, its mapping goes and its block is given back. -/
theorem sysDmaFree_of_mem {r : DmaAllocation} (hdistinct : (p.dmaAllocations.map (·.userVaddr)).Nodup)
    (hr : r ∈ p.dmaAllocations) (hne : r.userVaddr ≠ 0)
    (hvalid : p.aspace.validateRegion r.userVaddr.toNat r.mapSize.toNat = .ok ()) :
    sysDmaFree p r.userVaddr =
      (.ok (), some r.dmaInfo,
        { aspace := p.aspace.setPages r.userVaddr.toNat r.mapSize.toNat fun _ => none
          dmaAllocations := p.dmaAllocations.erase r }) := by
  have hfind := find?_of_nodup_map hdistinct hr
  have herase := eraseP_of_nodup_map hdistinct hr
  unfold sysDmaFree ProcessData.releaseDmaAllocation
  rw [if_neg hne, hfind, herase]
  dsimp only
  rw [AddrSpace.unmap_of_valid hvalid]

/-- The records that are left are among those that were there, and the space keeps its bounds. -/
theorem sysDmaFree_keeps (p : ProcessData) (userPtr : UInt64) :
    (∀ r ∈ (sysDmaFree p userPtr).2.2.dmaAllocations, r ∈ p.dmaAllocations) ∧
      (sysDmaFree p userPtr).2.2.aspace.base = p.aspace.base ∧
      (sysDmaFree p userPtr).2.2.aspace.size = p.aspace.size := by
  unfold sysDmaFree ProcessData.releaseDmaAllocation
  split
  · exact ⟨fun r hr => hr, rfl, rfl⟩
  · cases hfind : p.dmaAllocations.find? (·.userVaddr = userPtr) with
    | none => exact ⟨fun r hr => hr, rfl, rfl⟩
    | some allocation =>
        dsimp only
        cases hunmap : p.aspace.unmap allocation.userVaddr.toNat allocation.mapSize.toNat with
        | error err =>
            refine ⟨fun r hr => ?_, rfl, rfl⟩
            rcases List.mem_append.mp hr with hr | hr
            · exact List.mem_of_mem_eraseP hr
            · rw [List.mem_singleton.mp hr]
              exact List.mem_of_find?_eq_some hfind
        | ok aspace =>
            obtain ⟨-, rfl⟩ := AddrSpace.unmap_cases hunmap
            exact ⟨fun r hr => List.mem_of_mem_eraseP hr, rfl, rfl⟩

/-- A page of coherent memory after loading a program was there before. -/
theorem loadSegments_pages {a : AddrSpace Backing} {segments : List (Nat × Nat)} {page : Nat} {paddr : UInt64}
    (h : (loadSegments a segments).pages page = some (.coherent paddr)) : a.pages page = some (.coherent paddr) := by
  induction segments generalizing a with
  | nil => exact h
  | cons segment segments ih =>
      rw [loadSegments] at h
      cases hmap : a.map segment.1 segment.2 fun _ => Backing.other with
      | error err =>
          rw [hmap] at h
          exact h
      | ok a' =>
          rw [hmap] at h
          obtain ⟨-, -, -, rfl⟩ := AddrSpace.map_cases hmap
          have hpage := ih h
          rw [AddrSpace.pages_setPages] at hpage
          split at hpage
          · cases hpage
          · exact hpage

end

end Rknpu.Starry
