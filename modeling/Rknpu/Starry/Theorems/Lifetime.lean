import Rknpu.Device.Theorems.Handles
import Rknpu.Lib.Machine
import Rknpu.Starry.AddrSpace

/-!
# Mappings and the buffers under them

The pool of buffers and the address spaces of the processes together. A page that is mapped through `Card1::mmap` shows
memory of a buffer, and nothing ties the page to the life of the buffer.
-/

namespace Rknpu.Starry

open Device

/-! ## The machine -/

inductive UserPage where
  /-- A page of a buffer, and the allocation it belongs to. -/
  | gem (paddr : UInt64) (block : Nat)
  | other
deriving DecidableEq

structure Node where
  gem : GemPool
  /-- By process. -/
  spaces : Nat → AddrSpace UserPage
  /-- Buffers allocated so far. -/
  allocated : Nat

/-- Only other pages are mapped yet. -/
def Node.init (base size : Nat → Nat) (taken : Nat → Nat → Bool) : Node where
  gem := GemPool.new
  spaces pid :=
    { base := base pid
      size := size pid
      pages := fun page => if taken pid page then some .other else none }
  allocated := 0

inductive NodeCall where
  | create (args : RknpuMemCreate) (data : DVec)
  | destroy (args : RknpuMemDestroy)
  | mmap (pid : Nat) (args : MmapArgs) (freeArea : Option UInt64)
  | munmap (pid : Nat) (addr length : UInt64)

/-- What `card1` gives for a mapping. A private mapping copies pages and does not ask the device. -/
def cardBackend (g : GemPool) (args : MmapArgs) (_start length : UInt64) :
    Except AxError (UInt64 × (Nat → UserPage)) :=
  if args.mapType = .priv then .ok (length, fun _ => .other)
  else
    match g.pool[mmapHandle args.offset.toUInt64]?, g.mmap args.offset.toUInt64 with
    | some data, some range =>
        if range.last ≤ range.start then .error .invalidInput
        else .ok (min length (args.pageSize.alignDown (range.last - range.start)),
          fun i => .gem (range.start + UInt64.ofNat (pageSize4K * i)) data.block)
    | _, _ => .error .noSuchDevice

def Node.apply (s : Node) : NodeCall → Node
  | .create args data =>
      { s with
        gem := s.gem.apply (.create args { data with block := s.allocated })
        allocated := s.allocated + 1 }
  | .destroy args => { s with gem := s.gem.apply (.destroy args) }
  | .mmap pid args freeArea =>
      { s with spaces :=
          Function.update s.spaces pid (sysMmap (s.spaces pid) args freeArea (cardBackend s.gem args)).2 }
  | .munmap pid addr length =>
      { s with spaces := Function.update s.spaces pid (sysMunmap (s.spaces pid) addr length).2 }

def Node.run (s : Node) (calls : List NodeCall) : Node := calls.foldl Node.apply s

/-! ## Live buffers and mapped ones -/

namespace Node

variable {s : Node}

/-- Some process can reach the memory of this allocation. -/
def Maps (s : Node) (block : Nat) : Prop := ∃ pid page paddr, (s.spaces pid).pages page = some (.gem paddr block)

/-- The allocation belongs to a buffer of the pool. -/
def Holds (s : Node) (block : Nat) : Prop :=
  ∃ (handle : UInt32) (data : DVec), s.gem.pool[handle]? = some data ∧ data.block = block

/-- Every page that is mapped belongs to a live buffer. -/
def Live (s : Node) : Prop := ∀ block, s.Maps block → s.Holds block

/-- The buffer that the call drops is not mapped anywhere. `MEM_CREATE` drops what is stored under the handle it gives. -/
def Safe (s : Node) : NodeCall → Prop
  | .create _ _ => ∀ data, s.gem.pool[s.gem.handleCounter]? = some data → ¬ s.Maps data.block
  | .destroy args => ∀ data, s.gem.pool[args.handle]? = some data → ¬ s.Maps data.block
  | .mmap .. | .munmap .. => True

/-- Every buffer of the pool has an allocation of its own. -/
structure Numbered (s : Node) : Prop where
  lt : ∀ (handle : UInt32) (data : DVec), s.gem.pool[handle]? = some data → data.block < s.allocated
  unique : ∀ (handle handle' : UInt32) (data data' : DVec), s.gem.pool[handle]? = some data →
    s.gem.pool[handle']? = some data' → data.block = data'.block → handle = handle'

/-! ## Steps of the pool -/

theorem pool_create (s : Node) (args : RknpuMemCreate) (data : DVec) (handle : UInt32) :
    (s.apply (.create args data)).gem.pool[handle]? =
      if s.gem.handleCounter = handle then some { data with block := s.allocated } else s.gem.pool[handle]? := by
  rw [apply, GemPool.pool_apply_create]
  split
  · rename_i he
    subst he
    exact Std.ExtTreeMap.getElem?_insert_self
  · rename_i hne
    exact Std.ExtTreeMap.getElem?_insert_of_ne hne

theorem pool_destroy (s : Node) (args : RknpuMemDestroy) (handle : UInt32) :
    (s.apply (.destroy args)).gem.pool[handle]? = if args.handle = handle then none else s.gem.pool[handle]? := by
  rw [apply, GemPool.apply, GemPool.pool_memDestroy]
  split
  · rename_i he
    subst he
    exact Std.ExtTreeMap.getElem?_erase_self
  · rename_i hne
    exact Std.ExtTreeMap.getElem?_erase_of_ne hne

theorem Numbered.apply (h : s.Numbered) (call : NodeCall) : (s.apply call).Numbered := by
  cases call with
  | create args data =>
      refine ⟨fun handle d hd => ?_, fun handle handle' d d' hd hd' he => ?_⟩
      · rw [pool_create] at hd
        split at hd
        · cases hd
          exact Nat.lt_succ_self _
        · exact Nat.lt_succ_of_lt (h.lt handle d hd)
      · rw [pool_create] at hd hd'
        split at hd
        · cases hd
          split at hd'
          · rename_i hk hk'
            exact hk.symm.trans hk'
          · exact absurd he (Nat.ne_of_gt (h.lt handle' d' hd'))
        · split at hd'
          · cases hd'
            exact absurd he (Nat.ne_of_lt (h.lt handle d hd))
          · exact h.unique handle handle' d d' hd hd' he
  | destroy args =>
      have hold : ∀ (handle : UInt32) (d : DVec), (s.apply (.destroy args)).gem.pool[handle]? = some d →
          s.gem.pool[handle]? = some d := by
        intro handle d hd
        rw [pool_destroy] at hd
        split at hd
        · cases hd
        · exact hd
      exact ⟨fun handle d hd => h.lt handle d (hold _ _ hd),
        fun handle handle' d d' hd hd' => h.unique handle handle' d d' (hold _ _ hd) (hold _ _ hd')⟩
  | mmap pid args freeArea => exact ⟨h.lt, h.unique⟩
  | munmap pid addr length => exact ⟨h.lt, h.unique⟩

/-- Dropping what is stored under a handle is safe exactly when it is not mapped. -/
theorem live_iff_of_dropped (s' : Node) (handle : UInt32) (hnum : s.Numbered) (hlive : s.Live)
    (hspaces : s'.spaces = s.spaces) (hothers : ∀ k : UInt32, handle ≠ k → s'.gem.pool[k]? = s.gem.pool[k]?)
    (hnew : ∀ data, s'.gem.pool[handle]? = some data → data.block = s.allocated) :
    s'.Live ↔ ∀ data, s.gem.pool[handle]? = some data → ¬ s.Maps data.block := by
  have hmaps : ∀ block, s'.Maps block ↔ s.Maps block := by
    intro block
    rw [Maps, Maps, hspaces]
  constructor
  · intro hlive' data hdata hmapped
    obtain ⟨k, data', hdata', hblock⟩ := hlive' _ ((hmaps _).mpr hmapped)
    by_cases hk : handle = k
    · subst hk
      have hlt := hnum.lt _ _ hdata
      have hfresh := hnew _ hdata'
      omega
    · rw [hothers k hk] at hdata'
      exact hk (hnum.unique _ _ _ _ hdata hdata' hblock.symm)
  · intro hsafe block hmapped
    rw [hmaps] at hmapped
    obtain ⟨k, data, hdata, rfl⟩ := hlive block hmapped
    by_cases hk : handle = k
    · subst hk
      exact (hsafe data hdata hmapped).elim
    · exact ⟨k, data, (hothers k hk).trans hdata, rfl⟩

/-! ## Steps of the address spaces -/

/-- A page of a buffer that is mapped after the call was mapped before, or the buffer is in the pool. -/
theorem pages_sysMmap {g : GemPool} {a : AddrSpace UserPage} {args : MmapArgs} {freeArea : Option UInt64} {page block : Nat}
    {paddr : UInt64} (h : (sysMmap a args freeArea (cardBackend g args)).2.pages page = some (.gem paddr block)) :
    a.pages page = some (.gem paddr block) ∨
      ∃ (handle : UInt32) (data : DVec), g.pool[handle]? = some data ∧ data.block = block := by
  rcases sysMmap_cases a args freeArea (cardBackend g args) with he | ⟨start, length, backing, hbackend, hmap⟩
  · rw [he] at h
    exact .inl (emptied_pages h)
  · obtain ⟨_, _, _, he⟩ := AddrSpace.map_cases hmap
    rw [he, AddrSpace.pages_setPages] at h
    split at h
    · unfold cardBackend at hbackend
      split at hbackend
      · cases hbackend
        cases h
      · split at hbackend
        · rename_i data range hdata _
          split at hbackend
          · cases hbackend
          · cases hbackend
            cases h
            exact .inr ⟨_, data, hdata, rfl⟩
        · cases hbackend
    · exact .inl (emptied_pages h)

theorem Live.update (h : s.Live) {pid : Nat} {a : AddrSpace UserPage}
    (ha : ∀ page paddr block, a.pages page = some (.gem paddr block) →
      (s.spaces pid).pages page = some (.gem paddr block) ∨ s.Holds block) :
    ({ s with spaces := Function.update s.spaces pid a } : Node).Live := by
  rintro block ⟨pid', page, paddr, hpage⟩
  dsimp only at hpage
  by_cases hpid : pid' = pid
  · subst hpid
    rw [Function.update_self] at hpage
    rcases ha page paddr block hpage with hold | hholds
    · exact h block ⟨pid', page, paddr, hold⟩
    · exact hholds
  · rw [Function.update_of_ne hpid] at hpage
    exact h block ⟨pid', page, paddr, hpage⟩

theorem live_apply_iff (hnum : s.Numbered) (hlive : s.Live) (call : NodeCall) : (s.apply call).Live ↔ s.Safe call := by
  cases call with
  | create args data =>
      refine live_iff_of_dropped _ s.gem.handleCounter hnum hlive rfl (fun k hk => ?_) (fun d hd => ?_)
      · rw [pool_create, if_neg hk]
      · rw [pool_create, if_pos rfl] at hd
        cases hd
        rfl
  | destroy args =>
      refine live_iff_of_dropped _ args.handle hnum hlive rfl (fun k hk => ?_) (fun d hd => ?_)
      · rw [pool_destroy, if_neg hk]
      · rw [pool_destroy, if_pos rfl] at hd
        cases hd
  | mmap pid args freeArea =>
      simp only [Safe, iff_true]
      exact hlive.update fun page paddr block hpage => pages_sysMmap hpage
  | munmap pid addr length =>
      simp only [Safe, iff_true]
      exact hlive.update fun page paddr block hpage => .inl (pages_sysMunmap hpage)

end Node

/-- In a sequence of calls no mapping outlives its buffer, exactly when every call that drops a buffer drops one that is
not mapped. -/
theorem mappings_live_iff (base size : Nat → Nat) (taken : Nat → Nat → Bool) (calls : List NodeCall) :
    (∀ before after, calls = before ++ after → ((Node.init base size taken).run before).Live) ↔
      ∀ before call after, calls = before ++ call :: after → ((Node.init base size taken).run before).Safe call := by
  refine Machine.foldl_forall_iff (I := Node.Numbered) ?_ ?_ (fun s call h _ => h.apply call)
    (fun s call hnum hlive => Node.live_apply_iff hnum hlive call) calls
  · have hempty : ∀ handle : UInt32, (Node.init base size taken).gem.pool[handle]? = none :=
      fun _ => Std.ExtTreeMap.getElem?_empty
    refine ⟨fun handle data hdata => ?_, fun handle _ data _ hdata => ?_⟩
    · rw [hempty] at hdata
      cases hdata
    · rw [hempty] at hdata
      cases hdata
  · rintro block ⟨pid, page, paddr, hpage⟩
    simp only [Node.init] at hpage
    split at hpage <;> cases hpage

/-- A shared mapping of one page of the first buffer. -/
def mapFirst : MmapArgs where
  addr := 0
  length := 0x1000
  mapType := .shared
  fixed := false
  fixedNoreplace := false
  anonymous := false
  pageSize := .size4K
  fd := 3
  offset := 0x1000

/-- A buffer is created, mapped and destroyed: the page stays mapped, and no buffer is left. -/
theorem mapping_outlives_buffer : ∃ s : Node,
    s = (Node.init (fun _ => 0x1000) (fun _ => 0x7ffffffff000) fun _ _ => false).run
      [.create default (plainBuffer 0 0x200000), .mmap 1 mapFirst (some 0x10000), .destroy ⟨1, 0, 0⟩] ∧
    s.Maps 0 ∧ ¬ s.Holds 0 := by
  refine ⟨_, rfl, ⟨1, 0x10, 0x200000, by decide +kernel⟩, ?_⟩
  rintro ⟨handle, data, hdata, -⟩
  simp only [Node.run, List.foldl_cons, List.foldl_nil] at hdata
  rw [Node.pool_destroy] at hdata
  split at hdata
  · cases hdata
  · rename_i hne
    change ((Node.init (fun _ => 0x1000) (fun _ => 0x7ffffffff000) fun _ _ => false).apply
      (.create default (plainBuffer 0 0x200000))).gem.pool[handle]? = some data at hdata
    rw [Node.pool_create] at hdata
    split at hdata
    · rename_i he
      exact hne he
    · cases Std.ExtTreeMap.getElem?_empty.symm.trans hdata

end Rknpu.Starry
