import Rknpu.Device.Gem

/-!
# Handles

When a sequence of `MEM_CREATE` and `MEM_DESTROY` calls gives every buffer a handle of its own. The counter has 32 bits
and wraps, and nothing looks whether the handle it shows is in use.
-/

namespace Rknpu.Device

/-! ## Sequences of calls -/

/-- A call, with the buffer that the allocator gives. -/
inductive GemAct where
  | create (args : RknpuMemCreate) (data : DVec)
  | destroy (args : RknpuMemDestroy)

def GemAct.isCreate : GemAct → Bool
  | .create .. => true
  | .destroy _ => false

/-- No call of the sequence destroys the handle. -/
def NoDestroy (handle : UInt32) (acts : List GemAct) : Prop := ∀ args, .destroy args ∈ acts → args.handle ≠ handle

def creates (acts : List GemAct) : Nat := acts.countP GemAct.isCreate

namespace GemPool

def apply (g : GemPool) : GemAct → GemPool
  | .create args data =>
      match g.create args (some data) with
      | some (_, g) => g
      | none => g
  | .destroy args => g.memDestroy args

def run (acts : List GemAct) : GemPool := acts.foldl apply GemPool.new

/-- The handle stands for the buffer, in the pool and through `MEM_MAP` and `mmap`. -/
structure Resolves (g : GemPool) (handle : UInt32) (data : DVec) : Prop where
  pool : g.pool[handle]? = some data
  phys : g.getPhysAddrAndSize handle = some (data.busAddr, data.len)
  map : ∀ args : RknpuMemMap, args.handle = handle → ∃ reply, g.memMap args = .ok reply ∧
    g.mmap reply.offset = some data.pages

theorem Resolves.of_pool {g : GemPool} {handle : UInt32} {data : DVec} (h : g.pool[handle]? = some data) :
    g.Resolves handle data := by
  have hphys : g.getPhysAddrAndSize handle = some (data.busAddr, data.len) := by rw [getPhysAddrAndSize, h]; rfl
  refine ⟨h, hphys, ?_⟩
  rintro args rfl
  refine ⟨{ args with offset := args.handle.toUInt64 <<< 12 }, ?_, ?_⟩
  · rw [memMap, hphys]
    rfl
  · rw [mmap_eq, mmapHandle_shift, h]
    rfl

/-! ## One call -/

@[simp] theorem run_append_singleton (acts : List GemAct) (a : GemAct) : run (acts ++ [a]) = (run acts).apply a :=
  List.foldl_append ..

theorem pool_apply_create (g : GemPool) (args : RknpuMemCreate) (data : DVec) :
    (g.apply (.create args data)).pool = g.pool.insert g.handleCounter data := rfl

/-- Destroying a handle that is not in use changes nothing either way. -/
theorem pool_memDestroy (g : GemPool) (args : RknpuMemDestroy) :
    (g.memDestroy args).pool = g.pool.erase args.handle := by
  unfold memDestroy
  split
  · rename_i hnone
    rw [getPhysAddrAndSize, Option.isNone_map, Option.isNone_iff_eq_none] at hnone
    exact (Std.ExtTreeMap.erase_eq_self hnone).symm
  · rfl

theorem handleCounter_apply (g : GemPool) (a : GemAct) :
    (g.apply a).handleCounter = if a.isCreate then g.handleCounter + 1 else g.handleCounter := by
  cases a with
  | create args data => rfl
  | destroy args =>
      simp only [apply, memDestroy, GemAct.isCreate]
      split <;> rfl

/-- The counter counts the creates. -/
theorem handleCounter_run (acts : List GemAct) : (run acts).handleCounter = UInt32.ofNat (creates acts + 1) := by
  induction acts using List.reverseRecOn with
  | nil => rfl
  | append_singleton acts a ih =>
      rw [run_append_singleton, handleCounter_apply, ih, creates, creates, List.countP_append, List.countP_singleton]
      cases a.isCreate <;> simp [UInt32.ofNat_add, add_assoc]

end GemPool

/-! ## Counting creates -/

@[simp] theorem creates_append (acts acts' : List GemAct) : creates (acts ++ acts') = creates acts + creates acts' :=
  List.countP_append

@[simp] theorem creates_create (args : RknpuMemCreate) (data : DVec) (acts : List GemAct) :
    creates (.create args data :: acts) = creates acts + 1 := List.countP_cons_of_pos rfl

theorem exists_create {n : Nat} {acts : List GemAct} (h : n < creates acts) :
    ∃ mid args data rest, acts = mid ++ .create args data :: rest ∧ creates mid = n := by
  induction acts generalizing n with
  | nil => cases h
  | cons a acts ih =>
      cases a with
      | destroy d =>
          obtain ⟨mid, args, data, rest, rfl, hmid⟩ := ih (n := n) h
          exact ⟨.destroy d :: mid, args, data, rest, rfl, hmid⟩
      | create args data =>
          cases n with
          | zero => exact ⟨[], args, data, acts, rfl, rfl⟩
          | succ n =>
              rw [creates_create] at h
              obtain ⟨mid, args', data', rest, rfl, hmid⟩ := ih (Nat.lt_of_succ_lt_succ h)
              exact ⟨.create args data :: mid, args', data', rest, rfl, by rw [creates_create, hmid]⟩

/-! ## Buffers and their handles -/

namespace GemPool

/-- The counter is back at a handle after a multiple of 2^32 creates. -/
theorem handleCounter_eq_iff {before mid : List GemAct} {args : RknpuMemCreate} {data : DVec} :
    (run (before ++ .create args data :: mid)).handleCounter = (run before).handleCounter ↔
      (creates mid + 1) % 2 ^ 32 = 0 := by
  rw [handleCounter_run, handleCounter_run, creates_append, creates_create, ← UInt32.toNat_inj, UInt32.toNat_ofNat',
    UInt32.toNat_ofNat']
  omega

/-- A buffer stays under its handle until it is destroyed or 2^32 more are created. -/
theorem pool_run {before mid : List GemAct} {args : RknpuMemCreate} {data : DVec}
    (hmid : NoDestroy (run before).handleCounter mid) (hfew : creates mid < 2 ^ 32) :
    (run (before ++ .create args data :: mid)).pool[(run before).handleCounter]? = some data := by
  induction mid using List.reverseRecOn with
  | nil =>
      rw [run_append_singleton, pool_apply_create]
      exact Std.ExtTreeMap.getElem?_insert_self
  | append_singleton mid a ih =>
      rw [creates_append] at hfew
      have hbefore := ih (fun d hd => hmid d (List.mem_append_left _ hd)) (by omega)
      rw [← List.cons_append, ← List.append_assoc, run_append_singleton]
      cases a with
      | create args' data' =>
          have hne : (run (before ++ .create args data :: mid)).handleCounter ≠ (run before).handleCounter := by
            rw [show creates [GemAct.create args' data'] = 1 from rfl] at hfew
            rw [ne_eq, handleCounter_eq_iff]
            omega
          rw [pool_apply_create, Std.ExtTreeMap.getElem?_insert_of_ne hne, hbefore]
      | destroy d =>
          have hne := hmid d (List.mem_append_right _ (List.mem_singleton_self _))
          rw [apply, pool_memDestroy, Std.ExtTreeMap.getElem?_erase_of_ne hne, hbefore]

/-- A buffer in the pool was created under its handle and not destroyed since. -/
theorem origin {acts : List GemAct} {handle : UInt32} {data : DVec} (h : (run acts).pool[handle]? = some data) :
    ∃ before args mid, acts = before ++ .create args data :: mid ∧ (run before).handleCounter = handle ∧
      NoDestroy handle mid := by
  induction acts using List.reverseRecOn with
  | nil =>
      rw [run, List.foldl_nil, new, Std.ExtTreeMap.getElem?_empty] at h
      cases h
  | append_singleton acts a ih =>
      rw [run_append_singleton] at h
      cases a with
      | create args data' =>
          rw [pool_apply_create] at h
          by_cases he : (run acts).handleCounter = handle
          · rw [he, Std.ExtTreeMap.getElem?_insert_self] at h
            cases h
            exact ⟨acts, args, [], rfl, he, fun _ hd => nomatch hd⟩
          · rw [Std.ExtTreeMap.getElem?_insert_of_ne he] at h
            obtain ⟨before, args', mid, rfl, hhandle, hmid⟩ := ih h
            refine ⟨before, args', mid ++ [.create args data'], by simp, hhandle, fun d hd => hmid d ?_⟩
            simpa using hd
      | destroy d =>
          rw [apply, pool_memDestroy] at h
          have hne : d.handle ≠ handle := by
            rintro rfl
            rw [Std.ExtTreeMap.getElem?_erase_self] at h
            cases h
          rw [Std.ExtTreeMap.getElem?_erase_of_ne hne] at h
          obtain ⟨before, args', mid, rfl, hhandle, hmid⟩ := ih h
          refine ⟨before, args', mid ++ [.destroy d], by simp, hhandle, fun d' hd' => ?_⟩
          rcases List.mem_append.mp hd' with hold | hnew
          · exact hmid d' hold
          · cases List.mem_singleton.mp hnew
            exact hne

end GemPool

/-! ## Whole sequences -/

/-- Every create returns a handle that is not in use, and until it is destroyed the handle stands for its buffer. -/
def Stable (acts : List GemAct) : Prop :=
  ∀ before args data after, acts = before ++ .create args data :: after →
    ∃ reply g, (GemPool.run before).create args (some data) = some (reply, g) ∧
      (GemPool.run before).pool[reply.handle]? = none ∧
      ∀ mid rest, after = mid ++ rest → NoDestroy reply.handle mid →
        (GemPool.run (before ++ .create args data :: mid)).Resolves reply.handle data

/-- Between a create and the create that is 2^32 creates later, the handle of the first is destroyed. -/
def Spaced (acts : List GemAct) : Prop :=
  ∀ before args data mid args' data' rest,
    acts = before ++ .create args data :: (mid ++ .create args' data' :: rest) → creates mid = 2 ^ 32 - 1 →
    ¬ NoDestroy (UInt32.ofNat (creates before + 1)) mid

/-- Then less than 2^32 buffers are created while a handle is in use. -/
theorem Spaced.few {acts before mid rest : List GemAct} {args : RknpuMemCreate} {data : DVec} (h : Spaced acts)
    (he : acts = before ++ .create args data :: (mid ++ rest))
    (hmid : NoDestroy (UInt32.ofNat (creates before + 1)) mid) : creates mid < 2 ^ 32 := by
  by_contra hmany
  obtain ⟨mid', args', data', rest', rfl, hcount⟩ := exists_create (show 2 ^ 32 - 1 < creates mid by omega)
  refine h before args data mid' args' data' (rest' ++ rest) (by simp [he]) hcount fun d hd => ?_
  exact hmid d (List.mem_append_left _ hd)

/-- The handles are unique and stable exactly when they are destroyed in time. -/
theorem handles_stable_iff (acts : List GemAct) : Stable acts ↔ Spaced acts := by
  constructor
  · intro h before args data mid args' data' rest he hcount hmid
    obtain ⟨reply, g, hcreate, _, hresolves⟩ := h before args data _ he
    obtain ⟨reply', g', hcreate', hfree, _⟩ := h (before ++ .create args data :: mid) args' data' rest (by simp [he])
    have hhandle : reply.handle = (GemPool.run before).handleCounter := by
      cases hcreate
      rfl
    have hhandle' : reply'.handle = (GemPool.run (before ++ .create args data :: mid)).handleCounter := by
      cases hcreate'
      rfl
    -- The second create is given the handle of the first.
    have hsame : reply'.handle = reply.handle := by
      rw [hhandle, hhandle', GemPool.handleCounter_eq_iff]
      omega
    rw [hsame, (hresolves mid _ rfl (by rwa [hhandle, GemPool.handleCounter_run])).pool] at hfree
    cases hfree
  · intro h before args data after he
    refine ⟨_, _, rfl, ?_, ?_⟩
    · cases hlive : (GemPool.run before).pool[(GemPool.run before).handleCounter]? with
      | none => rfl
      | some old =>
          -- A buffer under the next handle was created 2^32 creates ago and not destroyed since.
          obtain ⟨before', args', mid, rfl, hhandle, hmid⟩ := GemPool.origin hlive
          rw [← hhandle, GemPool.handleCounter_run] at hmid
          have hcount := GemPool.handleCounter_eq_iff.mp hhandle.symm
          have hsplit : acts = before' ++ .create args' old :: (mid ++ .create args data :: after) := by simp [he]
          have hfew := h.few hsplit hmid
          exact (h before' args' old mid args data after hsplit (by omega) hmid).elim
    · intro mid rest hafter hmid
      refine .of_pool (GemPool.pool_run hmid ?_)
      dsimp only at hmid
      rw [GemPool.handleCounter_run] at hmid
      exact h.few (he.trans (by rw [hafter])) hmid

/-- A page of memory. -/
def plainBuffer (block : Nat) (busAddr : UInt64) : DVec where
  block := block
  busAddr := busAddr
  ptr := busAddr
  len := pageSize

/-- The first buffer is kept while 2^32 - 1 others are created. The next create is given its handle and drops it. -/
theorem create_drops_first {others : List GemAct} (hcount : creates others = 2 ^ 32 - 1) (hkeep : NoDestroy 1 others)
    (args args' : RknpuMemCreate) (data data' : DVec) : ∃ reply g,
    (GemPool.run (.create args data :: others)).pool[(1 : UInt32)]? = some data ∧
    (GemPool.run (.create args data :: others)).create args' (some data') = some (reply, g) ∧ reply.handle = 1 ∧
    g.pool[(1 : UInt32)]? = some data' := by
  have hcounter : (GemPool.run (.create args data :: others)).handleCounter = 1 := by
    refine (@GemPool.handleCounter_eq_iff [] others args data).mpr ?_
    omega
  have hlive : (GemPool.run (.create args data :: others)).pool[(1 : UInt32)]? = some data :=
    @GemPool.pool_run [] others args data hkeep (by omega)
  generalize GemPool.run (.create args data :: others) = g at hcounter hlive ⊢
  refine ⟨_, _, hlive, rfl, hcounter, ?_⟩
  rw [hcounter]
  exact Std.ExtTreeMap.getElem?_insert_self

/-- Buffers that are created and destroyed at once, under the handles from 2 on. -/
def comeAndGo (n : Nat) : List GemAct :=
  (List.range n).flatMap fun i =>
    [.create default (plainBuffer 1 0x2000), .destroy ⟨UInt32.ofNat (i + 2), 0, 0⟩]

theorem creates_comeAndGo (n : Nat) : creates (comeAndGo n) = n := by
  have hpair : ∀ i, List.countP GemAct.isCreate
      [GemAct.create default (plainBuffer 1 0x2000), .destroy ⟨UInt32.ofNat (i + 2), 0, 0⟩] = 1 := fun _ => rfl
  simp only [creates, comeAndGo, List.countP_flatMap, Function.comp_def, hpair, List.map_const', List.sum_replicate,
    List.length_range, smul_eq_mul, mul_one]

theorem noDestroy_comeAndGo {n : Nat} (h : n < 2 ^ 32) : NoDestroy 1 (comeAndGo n) := by
  intro args hargs
  simp only [comeAndGo, List.mem_flatMap, List.mem_range, List.mem_cons, reduceCtorEq, GemAct.destroy.injEq,
    List.not_mem_nil, or_false, false_or] at hargs
  obtain ⟨i, hi, rfl⟩ := hargs
  change UInt32.ofNat (i + 2) ≠ 1
  rw [ne_eq, ← UInt32.toNat_inj, UInt32.toNat_ofNat', show (1 : UInt32).toNat = 1 from rfl]
  omega

theorem live_handle_returned : ∃ acts reply g,
    (GemPool.run acts).pool[(1 : UInt32)]? = some (plainBuffer 0 0x1000) ∧
    (GemPool.run acts).create default (some (plainBuffer 2 0x3000)) = some (reply, g) ∧ reply.handle = 1 ∧
    g.pool[(1 : UInt32)]? = some (plainBuffer 2 0x3000) :=
  ⟨_, create_drops_first (creates_comeAndGo _) (noDestroy_comeAndGo (by norm_num)) default default _ _⟩

end Rknpu.Device
