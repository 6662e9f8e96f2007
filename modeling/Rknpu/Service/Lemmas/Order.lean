import Rknpu.Service.Lemmas.Origin

/-!
# The order of the Ready queues

An id enters a Ready queue at the end, when its submit is enqueued or when a completion leaves the submit with more to
dispatch. It leaves the queue where it stands. So the ids that are neither new nor bound to a core keep their order in
every section, whatever happens to the others.
-/

namespace Rknpu.Service

open Queue

variable {W : Type} {keep : RknpuQueueTaskId → Bool} {order : List RknpuQueueTaskId}

/-- The id may be filed at the end without breaking the order. -/
def MayRequeue (keep : RknpuQueueTaskId → Bool) (order : List RknpuQueueTaskId) (taskId : RknpuQueueTaskId) : Prop :=
  keep taskId = false ∨ ∃ front, order = front ++ [taskId]

namespace NpuSchedulerState

variable {s s' : NpuSchedulerState W} {taskId : RknpuQueueTaskId}

/-! ## Filing an id anew -/

theorem follows_reclassifyTask (h : s.ready.Follows keep order) (hwf : s.ready.WF) (hid : MayRequeue keep order taskId) :
    (s.reclassifyTask taskId).2.ready.Follows keep order := by
  rcases reclassifyTask_cases s taskId with ⟨_, he⟩ | ⟨t, _, ⟨_, he⟩ | ⟨_, _, he⟩ | ⟨_, _, _, he⟩ | ⟨_, _, _, he⟩⟩
  · rw [he]
    exact h.remove taskId
  · rw [he]
    exact h.remove taskId
  · rw [he]
    exact h.remove taskId
  · rw [he]
    exact h.requeue hwf _ hid
  · rw [he]
    exact h.remove taskId

/-- A submit with an error does not go back to Ready. -/
theorem ready_reclassifyTask_of_error (h : ∀ t, s.tasks[taskId]? = some t → t.lastError ≠ none) :
    (s.reclassifyTask taskId).2.ready = s.ready.remove taskId := by
  rcases reclassifyTask_cases s taskId with
    ⟨_, he⟩ | ⟨t, ht, ⟨_, he⟩ | ⟨_, _, he⟩ | ⟨_, _, hdisp, _⟩ | ⟨_, _, _, he⟩⟩
  · rw [he]
    rfl
  · rw [he]
    rfl
  · rw [he]
    rfl
  · obtain ⟨⟨l, i⟩, hnext⟩ := Option.isSome_iff_exists.mp hdisp
    exact (h t ht (RknpuQueueTask.lastError_of_nextDispatchableTask hnext)).elim
  · rw [he]
    rfl

theorem lastError_of_modify {f : RknpuQueueTask → RknpuQueueTask} (hf : ∀ t, (f t).lastError ≠ none)
    {t : RknpuQueueTask} (ht : (s.tasks.modify taskId f)[taskId]? = some t) : t.lastError ≠ none := by
  obtain ⟨t₀, _, rfl⟩ := Option.map_eq_some_iff.mp (Std.ExtTreeMap.getElem?_modify_self.symm.trans ht)
  exact hf t₀

/-! ## The locked sections -/

theorem Decided.follows {r : Option DispatchSetup × NpuSchedulerState W} (hr : Decided s r)
    (h : s.ready.Follows keep order) : r.2.ready.Follows keep order := by
  cases hr with
  | nothing _ => exact h
  | continued _ _ _ => exact h
  | promoted _ _ _ _ => exact h.dropAt _ _

theorem ready_failDispatch (s : NpuSchedulerState W) (coreSlot : Nat) (binding : CoreRunBinding) (err : RknpuError) :
    (s.failDispatch coreSlot binding err).2.ready = s.ready.remove binding.taskId := by
  apply ready_reclassifyTask_of_error
  intro t ht
  refine lastError_of_modify (s := s) (fun t => ?_) ht
  rw [RknpuQueueTask.lastError_failDispatch]
  exact Option.some_ne_none err

theorem follows_abortWait (h : s.ready.Follows keep order) (taskId : RknpuQueueTaskId) :
    (s.abortWait taskId).ready.Follows keep order := by
  rcases abortWait_cases s taskId with he | ⟨complete, _, he⟩
  · rw [he]
    exact h
  · have hready : ((s.interrupt taskId).reclassifyTask taskId).2.ready = s.ready.remove taskId := by
      apply ready_reclassifyTask_of_error
      intro t ht
      exact lastError_of_modify (s := s) (fun _ => Option.some_ne_none _) ht
    rw [he, hready]
    exact h.remove taskId

/-- The bound submits may go to the end. -/
def BoundMayRequeue (s : NpuSchedulerState W) (keep : RknpuQueueTaskId → Bool) (order : List RknpuQueueTaskId) : Prop :=
  ∀ (coreSlot : Nat) (binding : CoreRunBinding), s.coreBinding[coreSlot]? = some binding →
    MayRequeue keep order binding.taskId

theorem follows_harvestCompletion (h : s.ready.Follows keep order) (hwf : s.ready.WF)
    (hbound : s.BoundMayRequeue keep order) (completion : CoreCompletion) (timeNs : UInt64) :
    (s.harvestCompletion completion timeNs).2.ready.Follows keep order := by
  have hharvest := harvestCompletion_harvested s completion timeNs
  generalize s.harvestCompletion completion timeNs = r at hharvest
  cases hharvest with
  | idle _ => exact h
  | orphaned _ _ => exact h
  | filed hcore _ => exact follows_reclassifyTask (s := s.record completion _ _) h hwf (hbound _ _ hcore)

theorem coreBinding_harvestCompletion {completion : CoreCompletion} {timeNs : UInt64} {coreSlot : Nat}
    {binding : CoreRunBinding}
    (h : (s.harvestCompletion completion timeNs).2.coreBinding[coreSlot]? = some binding) :
    s.coreBinding[coreSlot]? = some binding := by
  have herased : ∀ {m : CoreMap} {c : Nat}, (m.erase c)[coreSlot]? = some binding → m[coreSlot]? = some binding := by
    intro m c hm
    rw [Std.ExtTreeMap.getElem?_erase] at hm
    split at hm
    · cases hm
    · exact hm
  have hharvest := harvestCompletion_harvested s completion timeNs
  generalize s.harvestCompletion completion timeNs = r at hharvest h
  cases hharvest with
  | idle _ => exact h
  | orphaned _ _ => exact herased h
  | @filed bound task _ _ =>
      rw [show (stampTerminal timeNs ((s.record completion bound task).reclassifyTask bound.taskId)).2.coreBinding =
        _ from (reclassifyTask_frame _ _).1] at h
      exact herased h

theorem follows_harvestCompletions (h : s.ready.Follows keep order) (hq : s.Queued)
    (hbound : s.BoundMayRequeue keep order) (completions : List (CoreCompletion × UInt64)) :
    (s.harvestCompletions completions).2.ready.Follows keep order := by
  induction completions generalizing s with
  | nil => exact h
  | cons c completions ih =>
      rw [harvestCompletions_cons]
      apply ih (follows_harvestCompletion h hq.readyWF hbound c.1 c.2) (hq.harvestCompletion c.1 c.2)
      intro coreSlot binding hcore
      exact hbound coreSlot binding (coreBinding_harvestCompletion hcore)

theorem ready_wakeTerminalTasks (s : NpuSchedulerState W) (prepareError : Bool) (taskIds : List RknpuQueueTaskId) :
    (s.wakeTerminalTasks prepareError taskIds).2.ready = s.ready := by
  have hone : ∀ (s : NpuSchedulerState W) (id : RknpuQueueTaskId), (s.wakeTask prepareError id).2.ready = s.ready := by
    intro s id
    unfold wakeTask
    cases prepareError with
    | true => dsimp only; split <;> rfl
    | false => dsimp only; split <;> rfl
  induction taskIds generalizing s with
  | nil => rfl
  | cons id taskIds ih => exact (ih _).trans (hone s id)

theorem ready_takeTerminalSubmit (s : NpuSchedulerState W) (taskId : RknpuQueueTaskId) :
    (s.takeTerminalSubmit taskId).2.ready = s.ready := by
  unfold takeTerminalSubmit
  split <;> rfl

end NpuSchedulerState

/-! ## One step -/

/-- The order stands after every section without an enqueue. -/
theorem Sys.follows_step {y y' : Sys W} {a : Act W} (hs : y.step a = some y') (hq : y.state.Queued)
    (h : y.state.ready.Follows keep order) (hbound : y.state.BoundMayRequeue keep order)
    (hne : ∀ submit tasks t0Ns waiter timeNs, a ≠ .enqueue submit tasks t0Ns waiter timeNs) :
    y'.state.ready.Follows keep order := by
  cases Sys.step_cases hs with
  | enqueue submit tasks t0Ns waiter timeNs => exact (hne _ _ _ _ _ rfl).elim
  | decide _ =>
      have hdec := (NpuSchedulerState.dispatchDecision_decided hq.readyWF).follows h
      unfold Sys.decide
      split
      · rename_i he
        rw [he] at hdec
        exact hdec
      · rename_i he
        rw [he] at hdec
        exact hdec
  | launch timeNs _ => exact h
  | @fail setup err _ =>
      change (y.state.failDispatch setup.coreSlot setup.binding err).2.ready.Follows keep order
      rw [NpuSchedulerState.ready_failDispatch]
      exact h.remove _
  | harvest completions _ => exact NpuSchedulerState.follows_harvestCompletions h hq hbound completions
  | @wake taskIds prepareRead deviceError _ =>
      change (y.state.wakeTerminalTasks (prepareRead && deviceError) taskIds).2.ready.Follows keep order
      rw [NpuSchedulerState.ready_wakeTerminalTasks]
      exact h
  | abort taskId => exact NpuSchedulerState.follows_abortWait h taskId
  | take taskId =>
      change (y.state.takeTerminalSubmit taskId).2.ready.Follows keep order
      rw [NpuSchedulerState.ready_takeTerminalSubmit]
      exact h

end Rknpu.Service
