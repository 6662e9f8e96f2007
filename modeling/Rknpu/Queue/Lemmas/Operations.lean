import Rknpu.Queue.Lemmas.Lanes

/-!
# What each operation does to a record

Every operation on a record keeps its frame: the id, the metadata, the reply fields and the number of
tasks. In static mode it updates the running bit or the cursor of one lane; in dynamic mode it moves the
three counters.
-/

namespace Rknpu.Queue

namespace RknpuQueueTask

variable {t : RknpuQueueTask} {l : LaneSlot} {i : UInt32} {slot : Slot}

/-- What no operation changes. -/
def frame (t : RknpuQueueTask) : RknpuQueueTaskId × SubmitMeta × SubmitReplyState × Nat :=
  (t.id, t.submitMeta, t.reply, t.tasks.length)

theorem runs_set (t : RknpuQueueTask) (l : LaneSlot) (b : Bool) :
    ({ t with laneIsrun := t.laneIsrun.set l b l.isLt } : RknpuQueueTask).runs = Function.update t.runs l b := by
  funext l'
  by_cases h : l' = l
  · subst h
    simp [runs]
  · have hne : l.val ≠ l'.val := fun he => h (Fin.ext he.symm)
    simp [runs, Function.update_of_ne h, hne]

theorem cursor_set (t : RknpuQueueTask) (l : LaneSlot) (c : UInt32) :
    ({ t with subcoreCursors := t.subcoreCursors.set l c l.isLt } : RknpuQueueTask).cursor =
      Function.update t.cursor l c.toNat := by
  funext l'
  by_cases h : l' = l
  · subst h
    simp [cursor]
  · have hne : l.val ≠ l'.val := fun he => h (Fin.ext he.symm)
    simp [cursor, Function.update_of_ne h, hne]

theorem hasRunningTasks_new (id : RknpuQueueTaskId) (queued : RknpuQueuedSubmit) (timeNs : UInt64) :
    ((RknpuQueueTask.new id queued).markEnqueued timeNs).hasRunningTasks = false := by
  unfold hasRunningTasks
  split
  · rfl
  · rfl

/-! ## Reserving -/

theorem nextDispatchableTask_clearIntStatus (t : RknpuQueueTask) (i : UInt32) :
    (t.clearIntStatus i).nextDispatchableTask = t.nextDispatchableTask := by
  have hlen : (t.clearIntStatus i).tasks.length = t.tasks.length := List.length_modify ..
  have hlane : (t.clearIntStatus i).nextTaskOfLane = t.nextTaskOfLane := by
    funext l
    unfold nextTaskOfLane
    rw [hlen]
    rfl
  unfold nextDispatchableTask
  rw [hlen, hlane]
  rfl

theorem reserveDispatch_eq_true (h : t.nextDispatchableTask = some (slot.laneSlot, slot.taskIndex)) :
    (t.clearIntStatus slot.taskIndex).reserveDispatch slot.laneSlot slot.taskIndex =
      (true, t.reserveSlot slot) := by
  have hnext : (t.clearIntStatus slot.taskIndex).nextDispatchableTask =
      some (slot.laneSlot, slot.taskIndex) := by
    rw [nextDispatchableTask_clearIntStatus, h]
  simp only [reserveSlot, reserveDispatch, hnext, ne_eq, not_true_eq_false, ↓reduceIte]
  split <;> rfl

theorem reserveSlot_static (hs : t.submitMeta.usesDynamicTasks = false)
    (h : t.nextDispatchableTask = some (slot.laneSlot, slot.taskIndex)) :
    t.reserveSlot slot =
      { t.clearIntStatus slot.taskIndex with laneIsrun := t.laneIsrun.set slot.laneSlot true } := by
  have hmode : (t.clearIntStatus slot.taskIndex).submitMeta.usesDynamicTasks = false := hs
  simp only [reserveSlot, reserveDispatch, nextDispatchableTask_clearIntStatus, h, ne_eq, not_true_eq_false,
    ↓reduceIte, hmode, Bool.false_eq_true]
  rfl

theorem reserveSlot_dynamic (hd : t.submitMeta.usesDynamicTasks = true)
    (h : t.nextDispatchableTask = some (slot.laneSlot, slot.taskIndex)) :
    t.reserveSlot slot =
      { t.clearIntStatus slot.taskIndex with
        dynamicNextTask := t.dynamicNextTask + 1
        dynamicRunningTasks := t.dynamicRunningTasks + 1 } := by
  have hmode : (t.clearIntStatus slot.taskIndex).submitMeta.usesDynamicTasks = true := hd
  simp only [reserveSlot, reserveDispatch, nextDispatchableTask_clearIntStatus, h, ne_eq, not_true_eq_false,
    ↓reduceIte, hmode]
  rfl

theorem tasks_reserveSlot (t : RknpuQueueTask) (slot : Slot) :
    (t.reserveSlot slot).tasks = t.tasks.modify slot.taskIndex.toNat ({ · with intStatus := 0 }) := by
  simp only [reserveSlot, reserveDispatch]
  split
  · rfl
  · split <;> rfl

theorem frame_reserveSlot (t : RknpuQueueTask) (slot : Slot) : (t.reserveSlot slot).frame = t.frame := by
  simp only [reserveSlot, reserveDispatch]
  split
  · simp [frame, clearIntStatus]
  · split <;> simp [frame, clearIntStatus]

theorem lastError_reserveSlot (t : RknpuQueueTask) (slot : Slot) :
    (t.reserveSlot slot).lastError = t.lastError := by
  simp only [reserveSlot, reserveDispatch]
  split
  · rfl
  · split <;> rfl

/-! ## Completing and failing -/

theorem frame_completeDispatch (t : RknpuQueueTask) (l : LaneSlot) : (t.completeDispatch l).frame = t.frame := by
  simp only [completeDispatch]
  split
  · rfl
  · split <;> rfl

theorem frame_failDispatch (t : RknpuQueueTask) (l : LaneSlot) (err : RknpuError) :
    (t.failDispatch l err).frame = t.frame := by
  simp only [failDispatch]
  split <;> rfl

theorem lastError_completeDispatch (t : RknpuQueueTask) (l : LaneSlot) :
    (t.completeDispatch l).lastError = t.lastError := by
  simp only [completeDispatch]
  split
  · rfl
  · split <;> rfl

theorem lastError_failDispatch (t : RknpuQueueTask) (l : LaneSlot) (err : RknpuError) :
    (t.failDispatch l err).lastError = some err := by
  simp only [failDispatch]
  split <;> rfl

theorem runs_completeDispatch (hs : t.submitMeta.usesDynamicTasks = false) :
    (t.completeDispatch l).runs = Function.update t.runs l false := by
  rw [← runs_set]
  simp only [completeDispatch, hs, Bool.false_eq_true, ↓reduceIte]
  split <;> rfl

/-- A lane below its capacity advances by exactly one: neither the saturation nor the clamp is reached. -/
theorem cursor_completeDispatch (hs : t.submitMeta.usesDynamicTasks = false)
    (hc : t.cursor l < t.submitMeta.laneCap l) :
    (t.completeDispatch l).cursor = Function.update t.cursor l (t.cursor l + 1) := by
  have hrange := SubmitMeta.laneRange_eq_some (lt_of_le_of_lt (Nat.zero_le _) hc)
  have hT := t.submitMeta.taskTotal.toNat_lt
  have hval : (min (t.subcoreCursors[l].saturatingAdd 1) t.submitMeta.laneRanges[l].taskNumber).toNat =
      t.cursor l + 1 := by
    rw [UInt32.toNat_min, UInt32.toNat_saturatingAdd]
    simp only [SubmitMeta.laneCap, cursor, UInt32.toNat_one] at hc ⊢
    omega
  rw [← hval, ← cursor_set]
  simp only [completeDispatch, hs, Bool.false_eq_true, ↓reduceIte, hrange]
  rfl

theorem runs_failDispatch (hs : t.submitMeta.usesDynamicTasks = false) (err : RknpuError) :
    (t.failDispatch l err).runs = Function.update t.runs l false := by
  rw [← runs_set]
  simp only [failDispatch, hs, Bool.false_eq_true, ↓reduceIte]
  rfl

theorem cursor_failDispatch (t : RknpuQueueTask) (l : LaneSlot) (err : RknpuError) :
    (t.failDispatch l err).cursor = t.cursor := by
  simp only [failDispatch]
  split <;> rfl

theorem counters_completeDispatch (hd : t.submitMeta.usesDynamicTasks = true) :
    (t.completeDispatch l).dynamicNextTask = t.dynamicNextTask ∧
      (t.completeDispatch l).dynamicRunningTasks.toNat = t.dynamicRunningTasks.toNat - 1 ∧
      (t.dynamicCompletedTasks.toNat < t.submitMeta.taskTotal.toNat →
        (t.completeDispatch l).dynamicCompletedTasks.toNat = t.dynamicCompletedTasks.toNat + 1) := by
  have hT := t.submitMeta.taskTotal.toNat_lt
  simp only [completeDispatch, hd, ↓reduceIte, UInt32.toNat_saturatingSub, UInt32.toNat_min,
    UInt32.toNat_saturatingAdd, UInt32.toNat_one, true_and]
  omega

theorem counters_failDispatch (hd : t.submitMeta.usesDynamicTasks = true) (err : RknpuError) :
    (t.failDispatch l err).dynamicNextTask = t.dynamicNextTask ∧
      (t.failDispatch l err).dynamicRunningTasks.toNat = t.dynamicRunningTasks.toNat - 1 ∧
      (t.failDispatch l err).dynamicCompletedTasks = t.dynamicCompletedTasks := by
  simp [failDispatch, hd, UInt32.toNat_saturatingSub]

/-! ## Recording a completion -/

theorem recordCompletion_eq (h : i.toNat < t.tasks.length) (status : UInt32) :
    t.recordCompletion l i status =
      { t.completeDispatch l with
        tasks := t.tasks.modify i.toNat fun desc => { desc with intStatus := status &&& desc.intMask }
        lastError :=
          if status ≠ 0 ∧ status &&& t.tasks[i.toNat].intMask = 0 then some .taskError
          else (t.completeDispatch l).lastError } := by
  have hswap : ∀ ts : List RknpuTask,
      ({ t with tasks := ts } : RknpuQueueTask).completeDispatch l =
        { t.completeDispatch l with tasks := ts } := by
    intro ts
    simp only [completeDispatch]
    split
    · rfl
    · split <;> rfl
  have hset : t.tasks.modify i.toNat (fun desc => { desc with intStatus := status &&& desc.intMask }) =
      t.tasks.set i.toNat
        { t.tasks[i.toNat] with intStatus := status &&& t.tasks[i.toNat].intMask } := by
    apply List.ext_getElem (by simp)
    intro j hj _
    rw [List.getElem_modify, List.getElem_set]
    split
    · rename_i he
      subst he
      rfl
    · rfl
  simp only [recordCompletion, List.getElem?_eq_getElem h]
  rw [hswap, hset]
  split <;> rfl

theorem lastError_recordCompletion (h : i.toNat < t.tasks.length) (status : UInt32) :
    (t.recordCompletion l i status).lastError =
      if status ≠ 0 ∧ status &&& t.tasks[i.toNat].intMask = 0 then some .taskError else t.lastError := by
  rw [recordCompletion_eq h]
  simp only [lastError_completeDispatch]

theorem frame_recordCompletion (t : RknpuQueueTask) (l : LaneSlot) (i status : UInt32) :
    (t.recordCompletion l i status).frame = t.frame := by
  by_cases h : i.toNat < t.tasks.length
  · rw [recordCompletion_eq h, ← frame_completeDispatch t l]
    have hlen : (t.completeDispatch l).tasks.length = t.tasks.length :=
      congrArg (fun f => f.2.2.2) (frame_completeDispatch t l)
    simp [frame, hlen]
  · have hnone : t.tasks[i.toNat]? = none := List.getElem?_eq_none (by omega)
    simp only [recordCompletion, hnone]
    exact frame_failDispatch t l .invalidParameter

theorem lastError_recordCompletion_ne_none (h : t.lastError ≠ none) (l : LaneSlot) (i status : UInt32) :
    (t.recordCompletion l i status).lastError ≠ none := by
  by_cases hi : i.toNat < t.tasks.length
  · rw [lastError_recordCompletion hi]
    split
    · exact nofun
    · exact h
  · have hnone : t.tasks[i.toNat]? = none := List.getElem?_eq_none (by omega)
    simp only [recordCompletion, hnone, lastError_failDispatch]
    exact nofun

theorem runs_recordCompletion (hs : t.submitMeta.usesDynamicTasks = false) (i status : UInt32) :
    (t.recordCompletion l i status).runs = Function.update t.runs l false := by
  by_cases hi : i.toNat < t.tasks.length
  · rw [recordCompletion_eq hi, ← runs_completeDispatch hs]
    rfl
  · have hnone : t.tasks[i.toNat]? = none := List.getElem?_eq_none (by omega)
    simp only [recordCompletion, hnone]
    exact runs_failDispatch hs .invalidParameter

/-- Apart from the time stamp, harvesting a slot is recording its completion. -/
theorem harvestSlot_eq (t : RknpuQueueTask) (slot : Slot) (status : UInt32) (timeNs : UInt64) :
    ∃ lat, t.harvestSlot slot status timeNs =
      { t.recordCompletion slot.laneSlot slot.taskIndex status with latency := lat } := by
  unfold harvestSlot
  dsimp only
  split
  · exact ⟨_, rfl⟩
  · exact ⟨_, rfl⟩

end RknpuQueueTask

/-! ## Leaving `tasks` -/

/-- A submit with an error is terminal as soon as nothing of it runs. -/
theorem RknpuQueueTask.isTerminal_of_error {t : RknpuQueueTask} (h : t.lastError ≠ none) :
    t.isTerminal = !t.hasRunningTasks := by
  have hsome : t.lastError.isSome = true := Option.isSome_iff_ne_none.mpr h
  have hnone : t.lastError.isNone = false := by simpa using hsome
  simp only [isTerminal, isTerminalSuccess, isTerminalFault, hsome, hnone, Bool.false_and, Bool.false_or,
    Bool.true_and]

theorem settledPlace_eq_live {t : RknpuQueueTask} :
    settledPlace t = .live ↔ t.isTerminalSuccess = false ∧ t.isTerminalFault = false := by
  unfold settledPlace RknpuQueueTask.isTerminal
  cases t.isTerminalSuccess <;> cases t.isTerminalFault <;> simp

theorem settledPlace_ne_gone {t : RknpuQueueTask} : settledPlace t ≠ .gone := by
  unfold settledPlace
  split <;> exact nofun

theorem settledPlace_ne_live {t : RknpuQueueTask} :
    settledPlace t ≠ .live ↔ t.isTerminalSuccess = true ∨ t.isTerminalFault = true := by
  rw [ne_eq, settledPlace_eq_live, not_and_or, Bool.not_eq_false, Bool.not_eq_false]

end Rknpu.Queue
