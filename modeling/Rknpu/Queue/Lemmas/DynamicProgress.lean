import Rknpu.Queue.Lemmas.Ledger

/-!
# Progress of a dynamic submit

The submit hands out its tasks in order to whichever core asks. The three counters say how many tasks
were handed out, are in flight and came back; which task is where is only in the ledgers.
-/

namespace Rknpu.Queue

/-- The agreement of the counters, the tasks in flight and the ledgers. -/
structure DynamicInv (m : SubmitMeta) (evs : List SubmitEvent) (ℓ : Life) : Prop where
  next_le : ℓ.task.dynamicNextTask.toNat ≤ m.taskTotal.toNat
  reserved : (reservedSlots evs).map (·.taskIndex.toNat) = List.range ℓ.task.dynamicNextTask.toNat
  bag : (reservedSlots evs).Perm (ℓ.inflight ++ harvestedSlots evs ++ failedSlots evs)
  running : ℓ.task.dynamicRunningTasks.toNat = ℓ.inflight.length
  completed : ℓ.task.dynamicCompletedTasks.toNat = (harvestedSlots evs).length
  unfinished : ℓ.place = .live → ℓ.task.lastError = none →
    ℓ.task.dynamicCompletedTasks.toNat < m.taskTotal.toNat ∨ m.taskTotal.toNat = 0
  left : ℓ.place ≠ .live → ℓ.inflight = []
  done : ℓ.place ≠ .live → ℓ.task.lastError = none →
    ℓ.task.dynamicCompletedTasks.toNat = m.taskTotal.toNat

namespace DynamicInv

variable {m : SubmitMeta} {evs : List SubmitEvent} {ℓ ℓ' : Life} {t : RknpuQueueTask} {fl : List Slot}
  {slot : Slot}

theorem next_eq (h : DynamicInv m evs ℓ) : ℓ.task.dynamicNextTask.toNat =
    ℓ.task.dynamicCompletedTasks.toNat + ℓ.task.dynamicRunningTasks.toNat + (failedSlots evs).length := by
  have hlen := congrArg List.length h.reserved
  have hbag := h.bag.length_eq
  simp only [List.length_map, List.length_range, List.length_append] at hlen hbag
  rw [h.running, h.completed]
  omega

/-- A submit that left without an error has handed out every task and got every one back. -/
theorem finished (h : DynamicInv m evs ℓ) (hne : ℓ.place ≠ .live) (he : ℓ.task.lastError = none)
    (hfail : failedSlots evs = []) :
    (reservedSlots evs).map (·.taskIndex.toNat) = List.range m.taskTotal.toNat ∧
      (reservedSlots evs).Perm (harvestedSlots evs) := by
  have hidle := h.left hne
  have hnext := h.next_eq
  rw [h.running, hidle, hfail, h.done hne he] at hnext
  have hbag := h.bag
  rw [hidle, hfail, List.nil_append, List.append_nil] at hbag
  refine ⟨?_, hbag⟩
  rw [h.reserved, hnext]
  rfl

theorem start (id : RknpuQueueTaskId) (queued : RknpuQueuedSubmit) (timeNs : UInt64) :
    DynamicInv queued.submitMeta [] (Life.start id queued timeNs) := by
  refine ⟨Nat.zero_le _, rfl, .refl _, rfl, rfl, ?_, fun hne => (hne rfl).elim, fun hne => (hne rfl).elim⟩
  intro _ _
  change 0 < _ ∨ _
  omega

theorem inflight_eq_nil (h : DynamicInv m evs ℓ) (hm : ℓ.task.submitMeta = m)
    (hd : m.usesDynamicTasks = true) (hidle : ℓ.task.hasRunningTasks = false) : ℓ.inflight = [] := by
  rw [← Bool.not_eq_true, RknpuQueueTask.hasRunningTasks_dynamic (by rw [hm]; exact hd), h.running,
    not_not] at hidle
  exact List.eq_nil_of_length_eq_zero hidle

theorem quiet (h : DynamicInv m evs ℓ) (hm : ℓ.task.submitMeta = m) (hd : m.usesDynamicTasks = true)
    {e : SubmitEvent} (hq : Life.Quiet ℓ e ℓ') : DynamicInv m (evs ++ [e]) ℓ' := by
  obtain ⟨err, lat, htask⟩ := hq.task
  obtain ⟨hres, hharv, hfail⟩ := hq.ledger
  have hnext : ℓ'.task.dynamicNextTask = ℓ.task.dynamicNextTask := by rw [htask]
  have hrun : ℓ'.task.dynamicRunningTasks = ℓ.task.dynamicRunningTasks := by rw [htask]
  have hcomp : ℓ'.task.dynamicCompletedTasks = ℓ.task.dynamicCompletedTasks := by rw [htask]
  -- Only an aborted submit leaves quietly, and only when nothing of it is in flight.
  have hleft : ℓ'.place ≠ .live → ℓ.inflight = [] := by
    intro hne
    by_cases hl : ℓ.place = .live
    · exact h.inflight_eq_nil hm hd (hq.leave hl hne).1
    · exact h.left hl
  have hinflight : ℓ'.inflight = ℓ.inflight := by
    by_cases hl' : ℓ'.place = .live
    · exact (hq.live hl').2
    · have hsub := hq.sublist
      rw [hleft hl'] at hsub ⊢
      exact List.sublist_nil.mp hsub
  refine ⟨?_, ?_, ?_, ?_, ?_, ?_, ?_, ?_⟩
  · rw [hnext]
    exact h.next_le
  · simpa [hnext, hres] using h.reserved
  · simpa [hinflight, hres, hharv, hfail] using h.bag
  · rw [hrun, hinflight]
    exact h.running
  · simpa [hcomp, hharv] using h.completed
  · intro hl he
    rw [hcomp]
    exact h.unfinished (hq.live hl).1 (hq.error he)
  · intro hne
    rw [hinflight]
    exact hleft hne
  · intro hne he
    rw [hcomp]
    refine h.done ?_ (hq.error he)
    intro hl
    exact (hq.leave hl hne).2 he

theorem reserve (h : DynamicInv m evs ⟨t, .live, fl⟩) (hm : t.submitMeta = m)
    (hd : m.usesDynamicTasks = true)
    (hnext : t.nextDispatchableTask = some (slot.laneSlot, slot.taskIndex)) :
    DynamicInv m (evs ++ [.reserved slot]) ⟨t.reserveSlot slot, .live, slot :: fl⟩ := by
  subst hm
  obtain ⟨hidx, hlt, _⟩ := RknpuQueueTask.nextDispatchableTask_dynamic hd hnext
  have hT := t.submitMeta.taskTotal.toNat_lt
  have heq := h.next_eq
  have hone : reservedSlots [.reserved slot] = [slot] := rfl
  have hnone : harvestedSlots [.reserved slot] = [] := rfl
  have hnone' : failedSlots [.reserved slot] = [] := rfl
  have hinc : (t.reserveSlot slot).dynamicNextTask.toNat = t.dynamicNextTask.toNat + 1 := by
    rw [RknpuQueueTask.reserveSlot_dynamic hd hnext]
    exact UInt32.toNat_add_of_lt (by rw [UInt32.toNat_one]; omega)
  have hrun : (t.reserveSlot slot).dynamicRunningTasks.toNat = t.dynamicRunningTasks.toNat + 1 := by
    rw [RknpuQueueTask.reserveSlot_dynamic hd hnext]
    simp only at heq
    exact UInt32.toNat_add_of_lt (by rw [UInt32.toNat_one]; omega)
  have hcomp : (t.reserveSlot slot).dynamicCompletedTasks = t.dynamicCompletedTasks := by
    rw [RknpuQueueTask.reserveSlot_dynamic hd hnext]
    rfl
  refine ⟨?_, ?_, ?_, ?_, ?_, ?_, fun hne => (hne rfl).elim, fun hne => (hne rfl).elim⟩
  · rw [hinc]
    exact hlt
  · simp only [hinc, List.range_succ, reservedSlots_append, hone, List.map_append, h.reserved,
      List.map_cons, List.map_nil, hidx]
  · simp only [reservedSlots_append, harvestedSlots_append, failedSlots_append, hone, hnone, hnone',
      List.append_nil, List.cons_append]
    exact (List.perm_append_singleton slot _).trans (h.bag.cons slot)
  · simp only [hrun, h.running, List.length_cons]
  · simpa [hcomp, hnone] using h.completed
  · intro _ he
    simp only [hcomp]
    exact h.unfinished rfl (by simpa [RknpuQueueTask.lastError_reserveSlot] using he)

theorem fail (h : DynamicInv m evs ⟨t, .live, fl⟩) (hm : t.submitMeta = m)
    (hd : m.usesDynamicTasks = true) (hmem : slot ∈ fl) (err : RknpuError) :
    DynamicInv m (evs ++ [.failed slot err])
      ⟨t.failDispatch slot.laneSlot err, settledPlace (t.failDispatch slot.laneSlot err), fl.erase slot⟩ := by
  subst hm
  obtain ⟨hnext, hrun, hcomp⟩ := RknpuQueueTask.counters_failDispatch (l := slot.laneSlot) hd err
  have herr := RknpuQueueTask.lastError_failDispatch t slot.laneSlot err
  have hmeta : (t.failDispatch slot.laneSlot err).submitMeta = t.submitMeta :=
    congrArg (fun f => f.2.1) (RknpuQueueTask.frame_failDispatch t slot.laneSlot err)
  have hone : failedSlots [.failed slot err] = [slot] := rfl
  have hnone : reservedSlots [.failed slot err] = [] := rfl
  have hnone' : harvestedSlots [.failed slot err] = [] := rfl
  have hrunning : (t.failDispatch slot.laneSlot err).dynamicRunningTasks.toNat = (fl.erase slot).length := by
    rw [hrun, h.running, List.length_erase_of_mem hmem]
  refine ⟨?_, ?_, ?_, hrunning, ?_, ?_, ?_, ?_⟩
  · simpa only [hnext] using h.next_le
  · simpa [hnext, hnone] using h.reserved
  · simp only [reservedSlots_append, harvestedSlots_append, failedSlots_append, hone, hnone, hnone',
      List.append_nil]
    refine h.bag.trans ?_
    rw [← List.append_assoc]
    refine List.Perm.trans ?_ (List.perm_append_singleton slot _).symm
    exact ((List.perm_cons_erase hmem).append_right _).append_right _
  · simpa [hcomp, hnone'] using h.completed
  · intro _ he
    rw [herr] at he
    cases he
  · intro hne
    rcases settledPlace_ne_live.mp hne with hsucc | hfault
    · rw [RknpuQueueTask.isTerminalSuccess_dynamic (by rw [hmeta]; exact hd), herr] at hsucc
      cases hsucc.1
    · have hidle := (RknpuQueueTask.isTerminalFault_iff.mp hfault).2
      rw [← Bool.not_eq_true, RknpuQueueTask.hasRunningTasks_dynamic (by rw [hmeta]; exact hd), hrunning,
        not_not] at hidle
      exact List.eq_nil_of_length_eq_zero hidle
  · intro _ he
    rw [herr] at he
    cases he

/-- A task in flight was handed out. -/
theorem lt_next (h : DynamicInv m evs ℓ) (hmem : slot ∈ ℓ.inflight) :
    slot.taskIndex.toNat < ℓ.task.dynamicNextTask.toNat := by
  have hres : slot ∈ reservedSlots evs :=
    h.bag.mem_iff.mpr (List.mem_append_left _ (List.mem_append_left _ hmem))
  rw [← List.mem_range, ← h.reserved]
  exact List.mem_map_of_mem hres

/-- A task in flight is below the total, and is not counted as completed. -/
theorem slot_mem (h : DynamicInv m evs ℓ) (hmem : slot ∈ ℓ.inflight) :
    slot.taskIndex.toNat < m.taskTotal.toNat ∧
      ℓ.task.dynamicCompletedTasks.toNat < m.taskTotal.toNat := by
  have hidx := h.lt_next hmem
  have hlen := List.length_pos_of_mem hmem
  have hnext := h.next_eq
  have hle := h.next_le
  have hrun := h.running
  omega

theorem harvest (h : DynamicInv m evs ⟨t, .live, fl⟩) (hm : t.submitMeta = m)
    (hd : m.usesDynamicTasks = true) (hlen : m.taskTotal.toNat ≤ t.tasks.length) (hmem : slot ∈ fl)
    (status : UInt32) (timeNs : UInt64) :
    DynamicInv m (evs ++ [.harvested slot status timeNs])
      ⟨t.harvestSlot slot status timeNs,
        settledPlace (t.recordCompletion slot.laneSlot slot.taskIndex status), fl.erase slot⟩ := by
  subst hm
  obtain ⟨hidx, hroom⟩ := h.slot_mem hmem
  obtain ⟨lat, hlat⟩ := RknpuQueueTask.harvestSlot_eq t slot status timeNs
  have hi : slot.taskIndex.toNat < t.tasks.length := lt_of_lt_of_le hidx hlen
  obtain ⟨hnext, hrun, hcomp⟩ := RknpuQueueTask.counters_completeDispatch (l := slot.laneSlot) hd
  have hmeta : (t.recordCompletion slot.laneSlot slot.taskIndex status).submitMeta = t.submitMeta :=
    congrArg (fun f => f.2.1) (RknpuQueueTask.frame_recordCompletion t slot.laneSlot slot.taskIndex status)
  rw [hlat]
  have hrec := RknpuQueueTask.recordCompletion_eq (l := slot.laneSlot) hi status
  have hnext' : (t.recordCompletion slot.laneSlot slot.taskIndex status).dynamicNextTask =
      t.dynamicNextTask := by rw [hrec]; exact hnext
  have hrun' : (t.recordCompletion slot.laneSlot slot.taskIndex status).dynamicRunningTasks.toNat =
      (fl.erase slot).length := by
    rw [hrec, List.length_erase_of_mem hmem]
    simp only [hrun]
    rw [h.running]
  have hcomp' : (t.recordCompletion slot.laneSlot slot.taskIndex status).dynamicCompletedTasks.toNat =
      t.dynamicCompletedTasks.toNat + 1 := by rw [hrec]; exact hcomp hroom
  clear hrec hnext hrun hcomp hlat
  generalize t.recordCompletion slot.laneSlot slot.taskIndex status = t' at *
  have hone : harvestedSlots [.harvested slot status timeNs] = [slot] := rfl
  have hnone : reservedSlots [.harvested slot status timeNs] = [] := rfl
  have hnone' : failedSlots [.harvested slot status timeNs] = [] := rfl
  have hbag : (reservedSlots (evs ++ [.harvested slot status timeNs])).Perm
      (fl.erase slot ++ harvestedSlots (evs ++ [.harvested slot status timeNs]) ++
        failedSlots (evs ++ [.harvested slot status timeNs])) := by
    simp only [reservedSlots_append, harvestedSlots_append, failedSlots_append, hone, hnone, hnone',
      List.append_nil]
    refine h.bag.trans (List.Perm.append_right _ ?_)
    rw [← List.append_assoc]
    refine List.Perm.trans ?_ (List.perm_append_singleton slot _).symm
    exact (List.perm_cons_erase hmem).append_right _
  have hsuccess : t'.isTerminalSuccess = true ↔
      t'.lastError = none ∧ t.submitMeta.taskTotal.toNat ≤ t'.dynamicCompletedTasks.toNat := by
    rw [RknpuQueueTask.isTerminalSuccess_dynamic (by rw [hmeta]; exact hd), hmeta]
  have hcount : t'.dynamicCompletedTasks.toNat + (fl.erase slot).length ≤ t.submitMeta.taskTotal.toNat := by
    have heq := h.next_eq
    have hle := h.next_le
    have hrunning := h.running
    rw [hcomp', List.length_erase_of_mem hmem]
    have hpos := List.length_pos_of_mem hmem
    simp only at heq hle hrunning
    omega
  refine ⟨?_, ?_, hbag, hrun', ?_, ?_, ?_, ?_⟩
  · simpa only [hnext'] using h.next_le
  · simpa [hnext', hnone] using h.reserved
  · simp only [hcomp', harvestedSlots_append, hone, List.length_append, List.length_singleton, h.completed]
  · intro hlive he
    have hnot := (settledPlace_eq_live.mp hlive).1
    rw [← Bool.not_eq_true, hsuccess, not_and, not_le] at hnot
    exact .inl (hnot he)
  · intro hne
    rcases settledPlace_ne_live.mp hne with hsucc | hfault
    · have hfull := (hsuccess.mp hsucc).2
      have hzero : (fl.erase slot).length = 0 := by omega
      exact List.eq_nil_of_length_eq_zero hzero
    · have hidle := (RknpuQueueTask.isTerminalFault_iff.mp hfault).2
      rw [← Bool.not_eq_true, RknpuQueueTask.hasRunningTasks_dynamic (by rw [hmeta]; exact hd), hrun',
        not_not] at hidle
      exact List.eq_nil_of_length_eq_zero hidle
  · intro hne he
    rcases settledPlace_ne_live.mp hne with hsucc | hfault
    · have hfull := (hsuccess.mp hsucc).2
      simp only
      omega
    · exact ((RknpuQueueTask.isTerminalFault_iff.mp hfault).1 he).elim

end DynamicInv

end Rknpu.Queue
