import Rknpu.Service.Lemmas.Queues
import Rknpu.Service.System

/-!
# Work that can be dispatched is queued

The part of the queue invariant that does not rest on ids being unique: the buckets are well-formed and a live
submit with a task to dispatch stands in Ready or Running. It holds in every reachable state, also after the
id counter has wrapped, because every section that changes a record files it anew.
-/

namespace Rknpu.Service

open Queue

variable {W : Type}

namespace NpuSchedulerState

variable {s s' : NpuSchedulerState W} {taskId : RknpuQueueTaskId}

/-- The buckets are well-formed, and what can be dispatched is in one of them. -/
structure Queued (s : NpuSchedulerState W) : Prop where
  readyWF : s.ready.WF
  runningWF : s.running.WF
  holds : ∀ (id : RknpuQueueTaskId) (t : RknpuQueueTask), s.tasks[id]? = some t → t.hasDispatchableTask = true →
    s.ready.Holds id ∨ s.running.Holds id

theorem Queued.new : (NpuSchedulerState.new : NpuSchedulerState W).Queued where
  readyWF := .empty
  runningWF := .empty
  holds := by
    intro id t ht
    simp [NpuSchedulerState.new] at ht

/-- Sections that leave the records and the buckets alone. -/
theorem Queued.of_frame (h : s.Queued) (htasks : s'.tasks = s.tasks) (hready : s'.ready = s.ready)
    (hrunning : s'.running = s.running) : s'.Queued := by
  obtain ⟨h₁, h₂, h₃⟩ := h
  exact ⟨hready ▸ h₁, hrunning ▸ h₂, by rw [htasks, hready, hrunning]; exact h₃⟩

theorem Queued.reclassifyTask (hready : s.ready.WF) (hrunning : s.running.WF)
    (hothers : ∀ (id : RknpuQueueTaskId) (t : RknpuQueueTask), id ≠ taskId → s.tasks[id]? = some t →
      t.hasDispatchableTask = true → s.ready.Holds id ∨ s.running.Holds id) :
    (s.reclassifyTask taskId).2.Queued := by
  have hready' := hready.remove taskId
  have hrunning' := hrunning.remove taskId
  have hkept : ∀ (id : RknpuQueueTaskId) (t : RknpuQueueTask), id ≠ taskId → s.tasks[id]? = some t →
      t.hasDispatchableTask = true → (s.ready.remove taskId).Holds id ∨ (s.running.remove taskId).Holds id := by
    intro id t hid ht hdisp
    refine (hothers id t hid ht hdisp).imp ?_ ?_
    · exact fun ⟨p, hp⟩ => ⟨p, (PrioBuckets.memAt_remove hready).mpr ⟨hp, hid⟩⟩
    · exact fun ⟨p, hp⟩ => ⟨p, (PrioBuckets.memAt_remove hrunning).mpr ⟨hp, hid⟩⟩
  rcases reclassifyTask_cases s taskId with ⟨hnone, he⟩ | ⟨t₀, ht₀, ⟨_, he⟩ | ⟨_, _, he⟩ | ⟨_, _, _, he⟩ | ⟨_, _, hno, he⟩⟩
  · rw [he]
    refine ⟨hready', hrunning', fun id t ht hdisp => hkept id t ?_ ht hdisp⟩
    rintro rfl
    cases hnone.symm.trans ht
  · rw [he]
    refine ⟨hready', hrunning', fun id t ht hdisp => ?_⟩
    have hid : id ≠ taskId := by
      rintro rfl
      simp at ht
    exact hkept id t hid ((Std.ExtTreeMap.getElem?_erase_of_ne (Ne.symm hid)).symm.trans ht) hdisp
  · rw [he]
    refine ⟨hready', hrunning'.push _ _, fun id t ht hdisp => ?_⟩
    by_cases hid : id = taskId
    · subst hid
      exact .inr ⟨_, PrioBuckets.memAt_push.mpr (.inr ⟨rfl, rfl⟩)⟩
    · refine (hkept id t hid ht hdisp).imp_right ?_
      exact fun ⟨p, hp⟩ => ⟨p, PrioBuckets.memAt_push.mpr (.inl hp)⟩
  · rw [he]
    refine ⟨hready'.push _ _, hrunning', fun id t ht hdisp => ?_⟩
    by_cases hid : id = taskId
    · subst hid
      exact .inl ⟨_, PrioBuckets.memAt_push.mpr (.inr ⟨rfl, rfl⟩)⟩
    · refine (hkept id t hid ht hdisp).imp_left ?_
      exact fun ⟨p, hp⟩ => ⟨p, PrioBuckets.memAt_push.mpr (.inl hp)⟩
  · rw [he]
    refine ⟨hready', hrunning', fun id t ht hdisp => hkept id t ?_ ht hdisp⟩
    rintro rfl
    cases ht₀.symm.trans ht
    rw [hno] at hdisp
    cases hdisp

/-- Sections that change one live record and file it anew. -/
theorem Queued.update_reclassify (h : s.Queued) {tasks : TaskMap} {coreBinding : CoreMap}
    {waiters : Std.ExtTreeMap RknpuQueueTaskId W compare}
    (hothers : ∀ id, id ≠ taskId → tasks[id]? = s.tasks[id]?) :
    (({ s with tasks, coreBinding, waiters } : NpuSchedulerState W).reclassifyTask taskId).2.Queued := by
  refine Queued.reclassifyTask h.readyWF h.runningWF ?_
  intro id t hid ht
  exact h.holds id t ((hothers id hid).symm.trans ht)

/-! ## The locked sections -/

theorem Queued.enqueueSubmit (h : s.Queued) (nextId : UInt64) (queued : RknpuQueuedSubmit) (waiter : W)
    (timeNs : UInt64) : (s.enqueueSubmit nextId queued waiter timeNs).2.2.Queued := by
  refine ⟨h.readyWF.push _ _, h.runningWF, fun id t ht hdisp => ?_⟩
  by_cases hid : nextId = id
  · subst hid
    exact .inl ⟨_, PrioBuckets.memAt_push.mpr (.inr ⟨rfl, rfl⟩)⟩
  · have ht' : s.tasks[id]? = some t := (Std.ExtTreeMap.getElem?_insert_of_ne hid).symm.trans
      ((Std.ExtTreeMap.getElem?_modify_of_ne hid).symm.trans ht)
    refine (h.holds id t ht' hdisp).imp_left ?_
    exact fun ⟨p, hp⟩ => ⟨p, PrioBuckets.memAt_push.mpr (.inl hp)⟩

theorem Queued.decided (h : s.Queued) {r : Option DispatchSetup × NpuSchedulerState W} (hr : Decided s r) :
    r.2.Queued := by
  cases hr with
  | nothing _ => exact h
  | @continued coreSlot priority binding task taskDesc _ _ hcand =>
      refine ⟨h.readyWF, h.runningWF, fun id t ht hdisp => ?_⟩
      by_cases hid : binding.taskId = id
      · subst hid
        exact .inr ⟨priority, (PrioBuckets.firstWhere_memAt hcand.first).1⟩
      · exact h.holds id t ((Std.ExtTreeMap.getElem?_insert_of_ne hid).symm.trans ht) hdisp
  | @promoted coreSlot priority binding task taskDesc _ _ _ hcand =>
      refine ⟨h.readyWF.dropAt _ _, h.runningWF.push _ _, fun id t ht hdisp => ?_⟩
      by_cases hid : binding.taskId = id
      · subst hid
        exact .inr ⟨_, PrioBuckets.memAt_push.mpr (.inr ⟨rfl, rfl⟩)⟩
      · refine (h.holds id t ((Std.ExtTreeMap.getElem?_insert_of_ne hid).symm.trans ht) hdisp).imp ?_ ?_
        · exact fun ⟨p, hp⟩ => ⟨p, PrioBuckets.memAt_dropAt_of_ne hid hp⟩
        · exact fun ⟨p, hp⟩ => ⟨p, PrioBuckets.memAt_push.mpr (.inl hp)⟩

theorem Queued.markDispatched (h : s.Queued) (taskId : RknpuQueueTaskId) (timeNs : UInt64) :
    (s.markDispatched taskId timeNs).Queued := by
  refine ⟨h.readyWF, h.runningWF, fun id t ht hdisp => ?_⟩
  by_cases hid : taskId = id
  · subst hid
    obtain ⟨t₀, ht₀, rfl⟩ := Option.map_eq_some_iff.mp (Std.ExtTreeMap.getElem?_modify_self.symm.trans ht)
    refine h.holds _ t₀ ht₀ ?_
    rw [← hdisp]
    unfold RknpuQueueTask.markFirstDispatch
    split <;> rfl
  · exact h.holds id t ((Std.ExtTreeMap.getElem?_modify_of_ne hid).symm.trans ht) hdisp

theorem Queued.failDispatch (h : s.Queued) (coreSlot : Nat) (binding : CoreRunBinding) (err : RknpuError) :
    (s.failDispatch coreSlot binding err).2.Queued :=
  h.update_reclassify fun _ hid => Std.ExtTreeMap.getElem?_modify_of_ne (Ne.symm hid)

theorem Queued.harvestCompletion (h : s.Queued) (completion : CoreCompletion) (timeNs : UInt64) :
    (s.harvestCompletion completion timeNs).2.Queued := by
  have hharvest := harvestCompletion_harvested s completion timeNs
  generalize s.harvestCompletion completion timeNs = r at hharvest
  cases hharvest with
  | idle _ => exact h
  | orphaned _ _ => exact h.of_frame rfl rfl rfl
  | @filed binding task _ _ =>
      have hfiled : ((s.record completion binding task).reclassifyTask binding.taskId).2.Queued :=
        h.update_reclassify fun _ hid => Std.ExtTreeMap.getElem?_insert_of_ne (Ne.symm hid)
      exact hfiled.of_frame rfl rfl rfl

theorem Queued.harvestCompletions (h : s.Queued) (completions : List (CoreCompletion × UInt64)) :
    (s.harvestCompletions completions).2.Queued := by
  induction completions generalizing s with
  | nil => exact h
  | cons c completions ih =>
      rw [harvestCompletions_cons]
      exact ih (h.harvestCompletion c.1 c.2)

theorem Queued.wakeTask (h : s.Queued) (prepareError : Bool) (taskId : RknpuQueueTaskId) :
    (s.wakeTask prepareError taskId).2.Queued := by
  unfold NpuSchedulerState.wakeTask
  cases prepareError with
  | true => dsimp only; split <;> exact h.of_frame rfl rfl rfl
  | false => dsimp only; split <;> exact h.of_frame rfl rfl rfl

theorem Queued.wakeTerminalTasks (h : s.Queued) (prepareError : Bool) (taskIds : List RknpuQueueTaskId) :
    (s.wakeTerminalTasks prepareError taskIds).2.Queued := by
  induction taskIds generalizing s with
  | nil => exact h
  | cons id taskIds ih => exact ih (h.wakeTask prepareError id)

theorem Queued.abortWait (h : s.Queued) (taskId : RknpuQueueTaskId) : (s.abortWait taskId).Queued := by
  rcases abortWait_cases s taskId with he | ⟨complete, _, he⟩
  · rw [he]
    exact h.of_frame rfl rfl rfl
  · rw [he]
    have hfiled : ((s.interrupt taskId).reclassifyTask taskId).2.Queued :=
      h.update_reclassify fun _ hid => Std.ExtTreeMap.getElem?_modify_of_ne (Ne.symm hid)
    exact hfiled.of_frame rfl rfl rfl

theorem Queued.takeTerminalSubmit (h : s.Queued) (taskId : RknpuQueueTaskId) :
    (s.takeTerminalSubmit taskId).2.Queued := by
  unfold NpuSchedulerState.takeTerminalSubmit
  split
  · exact h
  · exact h.of_frame rfl rfl rfl

/-! ## Giving up -/

/-- A decision that finds nothing leaves no idle core with a submit that could use it. -/
theorem Queued.nothing_fits (h : s.Queued) (hnone : s.dispatchDecision.1 = none) {coreSlot : Nat}
    (hidle : coreSlot ∈ s.idleCores) {t : RknpuQueueTask} (ht : s.tasks[taskId]? = some t)
    (hdisp : t.hasDispatchableTask = true) : t.allowsCore coreSlot = false := by
  have hdec := dispatchDecision_decided h.readyWF
  generalize s.dispatchDecision = r at hdec hnone
  cases hdec with
  | continued _ _ _ => cases hnone
  | promoted _ _ _ _ => cases hnone
  | nothing hno =>
      obtain ⟨⟨l, i⟩, hnext⟩ := Option.isSome_iff_exists.mp hdisp
      by_contra hallow
      have hcan : s.canDispatch coreSlot taskId = true :=
        canDispatch_eq_true_iff.mpr ⟨t, ht, by simpa using hallow, l, i, hnext⟩
      obtain ⟨hrunning, hready⟩ := hno coreSlot hidle
      rcases h.holds taskId t ht hdisp with ⟨p, hp⟩ | ⟨p, hp⟩
      · rw [PrioBuckets.firstWhere_eq_none_iff.mp hready p taskId hp] at hcan
        cases hcan
      · rw [PrioBuckets.firstWhere_eq_none_iff.mp hrunning p taskId hp] at hcan
        cases hcan

end NpuSchedulerState

/-! ## Every run -/

theorem Sys.queued_step {y y' : Sys W} (h : y.state.Queued) {a : Act W} (hs : y.step a = some y') :
    y'.state.Queued := by
  cases Sys.step_cases hs with
  | enqueue submit tasks t0Ns waiter timeNs => exact h.enqueueSubmit _ _ _ _
  | decide _ =>
      have hdec := h.decided (NpuSchedulerState.dispatchDecision_decided h.readyWF)
      unfold Sys.decide
      split
      · rename_i he
        rw [he] at hdec
        exact hdec
      · rename_i he
        rw [he] at hdec
        exact hdec
  | launch timeNs _ => exact h.markDispatched _ _
  | fail err _ => exact h.failDispatch _ _ _
  | harvest completions _ => exact h.harvestCompletions completions
  | wake deviceError _ => exact h.wakeTerminalTasks _ _
  | abort taskId => exact h.abortWait taskId
  | take taskId => exact h.takeTerminalSubmit taskId

theorem Sys.queued_of_run {acts : List (Act W)} {y : Sys W} (hrun : (scheduler W).run acts = some y) :
    y.state.Queued :=
  Machine.run_induction (M := scheduler W) (P := fun _ y => y.state.Queued) NpuSchedulerState.Queued.new
    (fun _ _ _ _ _ h hs => Sys.queued_step h hs) hrun

/-! ## The decision as a step -/

theorem Sys.decide_eq {y : Sys W} {setup : DispatchSetup} (h : y.state.dispatchDecision.1 = some setup) :
    y.decide.worker = .dispatching setup ∧ y.decide.state = y.state.dispatchDecision.2 := by
  unfold Sys.decide
  split
  · rename_i he
    rw [he] at h
    cases h
  · rename_i he
    rw [he] at h ⊢
    cases h
    exact ⟨rfl, rfl⟩

theorem Sys.decide_worker {y : Sys W} (h : y.state.dispatchDecision.1 = none) : y.decide.worker = y.worker := by
  unfold Sys.decide
  split
  · rfl
  · rename_i he
    rw [he] at h
    cases h

/-- A decision that finds nothing leaves the state as it was. -/
theorem Sys.decide_state {y : Sys W} (hqueued : y.state.Queued) (h : y.state.dispatchDecision.1 = none) :
    y.decide.state = y.state := by
  have hdec := NpuSchedulerState.dispatchDecision_decided hqueued.readyWF
  unfold Sys.decide
  generalize y.state.dispatchDecision = r at hdec h
  cases hdec with
  | nothing _ => rfl
  | continued _ _ _ => cases h
  | promoted _ _ _ _ => cases h

end Rknpu.Service
