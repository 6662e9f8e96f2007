import Rknpu.Service.Lemmas.Waiters

/-!
# Complete records and the worker's list

Which ids a section adds to `complete` or takes out of it. From this follows the division of labour between the
waiting side and the worker: a complete record either has a waiter, or the worker still has it on its list and will
drop it; and what is on the list is complete or has been given up.
-/

namespace Rknpu.Service

open Queue

variable {W : Type}

namespace NpuSchedulerState

variable {s : NpuSchedulerState W} {id taskId : RknpuQueueTaskId}

/-! ## Moves -/

/-- What `reclassify_task` reports was live and has left. -/
theorem reclassifyTask_moved {id : RknpuQueueTaskId} (h : (s.reclassifyTask taskId).1 = some id) :
    id = taskId ∧ s.tasks[taskId]? ≠ none ∧ (s.reclassifyTask taskId).2.tasks[taskId]? = none := by
  rcases s.reclassifyTask_cases taskId with ⟨_, he⟩ | ⟨t, ht, hcases⟩
  · rw [he] at h
    cases h
  · rcases hcases with ⟨_, he⟩ | ⟨_, _, he⟩ | ⟨_, _, _, he⟩ | ⟨_, _, _, he⟩
    · rw [he] at h ⊢
      cases h
      exact ⟨rfl, by rw [ht]; exact nofun, Std.ExtTreeMap.getElem?_erase_self⟩
    all_goals
      rw [he] at h
      cases h

theorem failDispatch_moved {coreSlot : Nat} {binding : CoreRunBinding} {err : RknpuError}
    (h : (s.failDispatch coreSlot binding err).1 = some taskId) :
    s.tasks[taskId]? ≠ none ∧ (s.failDispatch coreSlot binding err).2.tasks[taskId]? = none := by
  obtain ⟨rfl, hlive, hgone⟩ := reclassifyTask_moved h
  refine ⟨?_, hgone⟩
  rw [ne_eq, ← Std.ExtTreeMap.getElem?_modify_eq_none_iff]
  exact hlive

theorem harvestCompletion_moved {completion : CoreCompletion} {timeNs : UInt64}
    (h : (s.harvestCompletion completion timeNs).1 = some taskId) :
    s.tasks[taskId]? ≠ none ∧ (s.harvestCompletion completion timeNs).2.tasks[taskId]? = none := by
  have hharvest := harvestCompletion_harvested s completion timeNs
  generalize s.harvestCompletion completion timeNs = r at hharvest h
  cases hharvest with
  | idle _ => cases h
  | orphaned _ _ => cases h
  | @filed binding task _ htask =>
      obtain ⟨rfl, _, hgone⟩ := reclassifyTask_moved h
      exact ⟨fun hn => (nomatch hn.symm.trans htask), hgone⟩

theorem abortWait_moved {id : RknpuQueueTaskId} (h : Sys.abortMoved s id = some taskId) :
    taskId = id ∧ s.tasks[id]? ≠ none ∧ (s.abortWait id).tasks[id]? = none := by
  unfold Sys.abortMoved at h
  split at h
  · cases h
  · rename_i hc
    obtain ⟨rfl, hlive, hgone⟩ := reclassifyTask_moved h
    refine ⟨rfl, ?_, ?_⟩
    · rw [ne_eq, ← Std.ExtTreeMap.getElem?_modify_eq_none_iff]
      exact hlive
    · unfold NpuSchedulerState.abortWait
      dsimp only
      rw [if_neg hc]
      split
      · rename_i he
        rw [he] at hgone
        exact hgone
      · rename_i he
        rw [he] at hgone
        exact hgone

/-! ## The complete records after a section -/

theorem Decided.complete {r : Option DispatchSetup × NpuSchedulerState W} (h : Decided s r) :
    r.2.complete = s.complete := by
  cases h with
  | nothing _ => rfl
  | continued _ _ _ => rfl
  | promoted _ _ _ _ => rfl

theorem complete_reclassifyTask (s : NpuSchedulerState W) (taskId id : RknpuQueueTaskId) :
    (s.reclassifyTask taskId).2.complete[id]? = none ↔
      s.complete[id]? = none ∧ (s.reclassifyTask taskId).1 ≠ some id := by
  rcases s.reclassifyTask_cases taskId with ⟨_, he⟩ | ⟨t, _, ⟨_, he⟩ | ⟨_, _, he⟩ | ⟨_, _, _, he⟩ | ⟨_, _, _, he⟩⟩
  · rw [he]
    exact ⟨fun h => ⟨h, nofun⟩, And.left⟩
  · rw [he]
    by_cases hid : taskId = id
    · subst hid
      simp
    · simp [Std.ExtTreeMap.getElem?_insert_of_ne hid, hid]
  all_goals
    rw [he]
    exact ⟨fun h => ⟨h, nofun⟩, And.left⟩

theorem complete_failDispatch {coreSlot : Nat} {binding : CoreRunBinding} {err : RknpuError} :
    (s.failDispatch coreSlot binding err).2.complete[id]? = none ↔
      s.complete[id]? = none ∧ (s.failDispatch coreSlot binding err).1 ≠ some id :=
  complete_reclassifyTask ..

theorem complete_harvestCompletion {completion : CoreCompletion} {timeNs : UInt64} :
    (s.harvestCompletion completion timeNs).2.complete[id]? = none ↔
      s.complete[id]? = none ∧ (s.harvestCompletion completion timeNs).1 ≠ some id := by
  have hharvest := harvestCompletion_harvested s completion timeNs
  generalize s.harvestCompletion completion timeNs = r at hharvest
  cases hharvest with
  | idle _ => exact ⟨fun h => ⟨h, nofun⟩, And.left⟩
  | orphaned _ _ => exact ⟨fun h => ⟨h, nofun⟩, And.left⟩
  | filed _ _ => exact complete_stampTerminal.trans (complete_reclassifyTask ..)

theorem complete_harvestCompletions {completions : List (CoreCompletion × UInt64)} :
    (s.harvestCompletions completions).2.complete[id]? = none ↔
      s.complete[id]? = none ∧ id ∉ (s.harvestCompletions completions).1 := by
  induction completions generalizing s with
  | nil => exact ⟨fun h => ⟨h, List.not_mem_nil⟩, And.left⟩
  | cons c completions ih =>
      rw [harvestCompletions_cons, ih, complete_harvestCompletion, List.mem_append, Option.mem_toList, not_or, and_assoc]

theorem tasks_harvestCompletion {completion : CoreCompletion} {timeNs : UInt64} (h : s.tasks[id]? = none) :
    (s.harvestCompletion completion timeNs).2.tasks[id]? = none := by
  have hharvest := harvestCompletion_harvested s completion timeNs
  generalize s.harvestCompletion completion timeNs = r at hharvest
  cases hharvest with
  | idle _ => exact h
  | orphaned _ _ => exact h
  | @filed binding task _ htask =>
      have hid : binding.taskId ≠ id := by
        rintro rfl
        cases h.symm.trans htask
      have hothers := reclassifyTask_others (s := s.record completion binding task) (Ne.symm hid)
      exact hothers.1.trans ((Std.ExtTreeMap.getElem?_insert_of_ne hid).trans h)

/-- Only live submits are moved by a harvest. -/
theorem live_of_mem_harvestCompletions {completions : List (CoreCompletion × UInt64)}
    (h : id ∈ (s.harvestCompletions completions).1) : s.tasks[id]? ≠ none := by
  induction completions generalizing s with
  | nil => cases h
  | cons c completions ih =>
      rw [harvestCompletions_cons, List.mem_append, Option.mem_toList] at h
      rcases h with h | h
      · exact (harvestCompletion_moved h).1
      · intro hnone
        exact ih h (tasks_harvestCompletion hnone)

theorem complete_wakeTask {prepareError : Bool} : (s.wakeTask prepareError taskId).2.complete[id]? = none ↔
    s.complete[id]? = none ∨ (id = taskId ∧ s.waiters[id]? = none) := by
  have hmark : (if prepareError then
      { s with complete := s.complete.modify taskId ({ · with lastError := some .memoryError }) }
      else s).complete[id]? = none ↔ s.complete[id]? = none := by
    split
    · exact Std.ExtTreeMap.getElem?_modify_eq_none_iff
    · exact Iff.rfl
  have hwaiters : (if prepareError then
      { s with complete := s.complete.modify taskId ({ · with lastError := some .memoryError }) }
      else s).waiters = s.waiters := by split <;> rfl
  unfold wakeTask
  dsimp only
  rw [hwaiters]
  split
  · rename_i hw
    rw [hmark]
    refine (or_iff_left ?_).symm
    rintro ⟨rfl, hnone⟩
    cases hw.symm.trans hnone
  · rename_i hw
    by_cases hid : taskId = id
    · subst hid
      simp [hw]
    · rw [Std.ExtTreeMap.getElem?_erase_of_ne hid, hmark]
      exact (or_iff_left fun h => hid h.1.symm).symm

theorem complete_wakeTerminalTasks {prepareError : Bool} {taskIds : List RknpuQueueTaskId} :
    (s.wakeTerminalTasks prepareError taskIds).2.complete[id]? = none ↔
      s.complete[id]? = none ∨ (id ∈ taskIds ∧ s.waiters[id]? = none) := by
  induction taskIds generalizing s with
  | nil => simp [wakeTerminalTasks]
  | cons taskId taskIds ih =>
      have hstep : (s.wakeTerminalTasks prepareError (taskId :: taskIds)).2 =
          ((s.wakeTask prepareError taskId).2.wakeTerminalTasks prepareError taskIds).2 := rfl
      rw [hstep, ih, complete_wakeTask, s.waiters_wakeTask, List.mem_cons]
      tauto

theorem complete_abortWait (s : NpuSchedulerState W) (taskId : RknpuQueueTaskId) :
    (s.abortWait taskId).complete = s.complete.erase taskId := by
  unfold abortWait
  dsimp only
  split
  · rfl
  · rename_i hc
    rw [Bool.not_eq_true, Std.ExtTreeMap.contains_eq_isSome_getElem?, Option.isSome_eq_false_iff,
      Option.isNone_iff_eq_none] at hc
    have hcases := reclassifyTask_cases (s.interrupt taskId) taskId
    unfold interrupt at hcases
    rw [Std.ExtTreeMap.erase_eq_self hc]
    rcases hcases with ⟨_, he⟩ | ⟨t, _, ⟨_, he⟩ | ⟨_, _, he⟩ | ⟨_, _, _, he⟩ | ⟨_, _, _, he⟩⟩
    · rw [he]
      rfl
    · rw [he]
      exact Std.ExtTreeMap.erase_insert_of_fresh _ hc
    all_goals
      rw [he]
      rfl

end NpuSchedulerState

/-! ## The worker's list -/

/-- The submits that the worker has still to wake. -/
def WorkerPhase.wakes : WorkerPhase → List RknpuQueueTaskId
  | .waking taskIds _ => taskIds
  | _ => []

theorem Sys.Inv.enqueued_of_live {y : Sys W} (h : y.Inv) {taskId : RknpuQueueTaskId}
    (hlive : y.state.tasks[taskId]? ≠ none) : taskId ∈ enqueuedIds y.hist := by
  obtain ⟨t, ht⟩ := Option.ne_none_iff_exists'.mp hlive
  obtain ⟨queued, timeNs, _, he, _⟩ := h.life ht
  exact mem_enqueuedIds.mpr ⟨queued, timeNs, he⟩

/-- Each complete record has somebody who will remove it. -/
structure Sys.Attended (y : Sys W) : Prop where
  /-- A complete record without a waiter is on the worker's list. -/
  unwaited : ∀ id, y.state.complete[id]? ≠ none → y.state.waiters[id]? = none → id ∈ y.worker.wakes
  /-- What is on the list was enqueued, and is complete or given up. -/
  listed : ∀ id ∈ y.worker.wakes, id ∈ enqueuedIds y.hist ∧
    (y.state.complete[id]? ≠ none ∨ y.state.waiters[id]? = none)

namespace Sys.Attended

variable {y y' : Sys W}

/-- A step of a worker without a list that moves these submits into `complete`. -/
theorem of_moved (hy : y.Attended) (h : y.Inv) (hidle : y.worker.wakes = []) (hhist : y.hist <+: y'.hist)
    (hwaiters : ∀ id : RknpuQueueTaskId, y'.state.waiters[id]? = y.state.waiters[id]?)
    (hcomplete : ∀ id : RknpuQueueTaskId,
      y'.state.complete[id]? = none ↔ y.state.complete[id]? = none ∧ id ∉ y'.worker.wakes)
    (hlive : ∀ id ∈ y'.worker.wakes, y.state.tasks[id]? ≠ none) : y'.Attended := by
  refine ⟨fun id hc hw => ?_, fun id hid => ⟨?_, ?_⟩⟩
  · rw [hwaiters] at hw
    by_contra hno
    refine hc ((hcomplete id).mpr ⟨?_, hno⟩)
    by_contra hc'
    have hmem := hy.unwaited id hc' hw
    rw [hidle] at hmem
    cases hmem
  · obtain ⟨evs, he⟩ := hhist
    rw [← he, enqueuedIds_append]
    exact List.mem_append_left _ (h.enqueued_of_live (hlive id hid))
  · exact .inl fun hnone => ((hcomplete id).mp hnone).2 hid

/-- A step that gives one id up, and leaves the worker and the other ids alone. -/
theorem of_removed (hy : y.Attended) (taskId : RknpuQueueTaskId) (hhist : y.hist <+: y'.hist)
    (hworker : y'.worker = y.worker) (hwaiter : y'.state.waiters[taskId]? = none)
    (hcomplete : y'.state.complete[taskId]? = none)
    (hothers : ∀ id, id ≠ taskId → y'.state.waiters[id]? = y.state.waiters[id]? ∧
      y'.state.complete[id]? = y.state.complete[id]?) : y'.Attended := by
  refine ⟨fun id hc hw => ?_, fun id hid => ?_⟩
  · by_cases hid : id = taskId
    · subst hid
      exact (hc hcomplete).elim
    · obtain ⟨hw', hc'⟩ := hothers id hid
      rw [hworker]
      exact hy.unwaited id (hc' ▸ hc) (hw'.symm.trans hw)
  · rw [hworker] at hid
    obtain ⟨hmem, hor⟩ := hy.listed id hid
    obtain ⟨evs, he⟩ := hhist
    rw [← he, enqueuedIds_append]
    refine ⟨List.mem_append_left _ hmem, ?_⟩
    by_cases hid : id = taskId
    · subst hid
      exact .inr hwaiter
    · obtain ⟨hw', hc'⟩ := hothers id hid
      rwa [hw', hc']

theorem enqueue (hy : y.Attended) (h : y.Inv) {queued : RknpuQueuedSubmit} {waiter : W} {timeNs : UInt64}
    (hfit : (y.enqueue queued waiter timeNs).IdsFit) : (y.enqueue queued waiter timeNs).Attended := by
  have hwaiters : ∀ id, id ≠ y.nextQueueTaskId →
      (y.enqueue queued waiter timeNs).state.waiters[id]? = y.state.waiters[id]? :=
    fun id hid => Std.ExtTreeMap.getElem?_insert_of_ne (Ne.symm hid)
  refine ⟨fun id hc hw => ?_, fun id hid => ?_⟩
  · by_cases hid : id = y.nextQueueTaskId
    · subst hid
      cases hw.symm.trans Std.ExtTreeMap.getElem?_insert_self
    · exact hy.unwaited id hc ((hwaiters id hid).symm.trans hw)
  · obtain ⟨hmem, hor⟩ := hy.listed id hid
    have hne : id ≠ y.nextQueueTaskId := by
      rintro rfl
      exact h.fresh hfit.of_enqueue hmem
    rw [hwaiters id hne]
    refine ⟨?_, hor⟩
    exact (enqueuedIds_append ..).symm ▸ List.mem_append_left _ hmem

theorem wake (hy : y.Attended) {taskIds : List RknpuQueueTaskId} {prepareRead prepareError : Bool}
    (hw : y.worker = .waking taskIds prepareRead) : (y.wake taskIds prepareError).Attended := by
  refine ⟨fun id hc hnone => ?_, nofun⟩
  rw [Sys.wake, NpuSchedulerState.waiters_wakeTerminalTasks] at hnone
  rw [Sys.wake, ne_eq, NpuSchedulerState.complete_wakeTerminalTasks, not_or] at hc
  have hmem := hy.unwaited id hc.1 hnone
  rw [hw] at hmem
  exact (hc.2 ⟨hmem, hnone⟩).elim

theorem abort (hy : y.Attended) (taskId : RknpuQueueTaskId) : (y.abort taskId).Attended := by
  have hwaiters : (y.abort taskId).state.waiters = y.state.waiters.erase taskId :=
    NpuSchedulerState.waiters_abortWait ..
  have hcomplete : (y.abort taskId).state.complete = y.state.complete.erase taskId :=
    NpuSchedulerState.complete_abortWait ..
  refine hy.of_removed taskId (Sys.step_hist (a := .abort taskId) rfl) rfl ?_ ?_ fun id hid => ⟨?_, ?_⟩
  · rw [hwaiters, Std.ExtTreeMap.getElem?_erase_self]
  · rw [hcomplete, Std.ExtTreeMap.getElem?_erase_self]
  · rw [hwaiters, Std.ExtTreeMap.getElem?_erase_of_ne (Ne.symm hid)]
  · rw [hcomplete, Std.ExtTreeMap.getElem?_erase_of_ne (Ne.symm hid)]

theorem take (hy : y.Attended) (taskId : RknpuQueueTaskId) : (y.take taskId).Attended := by
  have hhist := Sys.step_hist (y := y) (a := .take taskId) rfl
  cases hc : y.state.complete[taskId]? with
  | none =>
      have hstate : (y.take taskId).state = y.state := by
        simp only [Sys.take, NpuSchedulerState.takeTerminalSubmit, hc]
      obtain ⟨evs, he⟩ := hhist
      refine ⟨by rw [hstate]; exact hy.unwaited, fun id hid => ?_⟩
      rw [hstate, ← he, enqueuedIds_append]
      exact (hy.listed id hid).imp_left (List.mem_append_left _)
  | some task =>
      have hstate := Sys.state_take hc
      refine hy.of_removed taskId hhist rfl ?_ ?_ fun id hid => ⟨?_, ?_⟩
      · rw [hstate, Std.ExtTreeMap.getElem?_erase_self]
      · rw [hstate, Std.ExtTreeMap.getElem?_erase_self]
      · rw [hstate, Std.ExtTreeMap.getElem?_erase_of_ne (Ne.symm hid)]
      · rw [hstate, Std.ExtTreeMap.getElem?_erase_of_ne (Ne.symm hid)]

theorem step (hy : y.Attended) (h : y.Inv) {a : Act W} (hfit : y'.IdsFit) (hs : y.step a = some y') : y'.Attended := by
  have hhist := Sys.step_hist hs
  have hwaiters : a.isWorker = true → ∀ id : RknpuQueueTaskId, y'.state.waiters[id]? = y.state.waiters[id]? := by
    intro hworker id
    refine h.waiters_step hs fun hconcerns => ?_
    cases a <;> first | exact hconcerns | cases hworker
  cases Sys.step_cases hs with
  | enqueue submit tasks t0Ns waiter timeNs => exact hy.enqueue h hfit
  | decide hw =>
      have hsame := (NpuSchedulerState.dispatchDecision_decided h.queues.readyWF).complete
      have hidle : y.worker.wakes = [] ∧ y.decide.worker.wakes = [] ∧ y.decide.state.complete = y.state.complete := by
        unfold Sys.decide
        split
        · rename_i he
          rw [he] at hsame
          exact ⟨by rw [hw]; rfl, by rw [hw]; rfl, hsame⟩
        · rename_i he
          rw [he] at hsame
          exact ⟨by rw [hw]; rfl, rfl, hsame⟩
      refine hy.of_moved h hidle.1 hhist (hwaiters rfl) (fun id => ?_) (by rw [hidle.2.1]; exact nofun)
      rw [hidle.2.1, hidle.2.2]
      simp
  | launch timeNs hw =>
      refine hy.of_moved h (by rw [hw]; rfl) hhist (hwaiters rfl) (fun id => ?_) nofun
      exact ⟨fun hc => ⟨hc, nofun⟩, And.left⟩
  | fail err hw =>
      refine hy.of_moved h (by rw [hw]; rfl) hhist (hwaiters rfl) (fun id => ?_) fun id hid => ?_
      · refine NpuSchedulerState.complete_failDispatch.trans (and_congr_right fun _ => not_congr ?_)
        exact Option.mem_toList.symm
      · exact (NpuSchedulerState.failDispatch_moved (Option.mem_toList.mp hid)).1
  | harvest completions hw =>
      refine hy.of_moved h (by rw [hw]; rfl) hhist (hwaiters rfl) (fun id => ?_) fun id hid => ?_
      · exact NpuSchedulerState.complete_harvestCompletions
      · exact NpuSchedulerState.live_of_mem_harvestCompletions hid
  | wake deviceError hw => exact hy.wake hw
  | abort taskId => exact hy.abort taskId
  | take taskId => exact hy.take taskId

end Sys.Attended

theorem Sys.attended_of_run {acts : List (Act W)} {y : Sys W} (hrun : (scheduler W).run acts = some y)
    (hfit : y.IdsFit) : y.Attended := by
  refine Machine.run_induction (M := scheduler W) (P := fun _ y => y.IdsFit → y.Attended) ?_ ?_ hrun hfit
  · exact fun _ => ⟨fun id hc => by simp [scheduler, Sys.init, NpuSchedulerState.new] at hc, nofun⟩
  · intro _ y a y' hrun ih hs hfit'
    have hfit := hfit'.of_step hs
    exact (ih hfit).step (Sys.inv_of_run hrun hfit) hfit' hs

end Rknpu.Service
