import Rknpu.Service.Lemmas.Invariant

/-!
# Waiters

The waiter of a submit stays registered until its wait is aborted or its record is taken. So a submit whose
wait is not aborted is never dropped by `wake_terminal_tasks`: once terminal, its record is there until the
ioctl takes it.
-/

namespace Rknpu.Service

open Queue

variable {W : Type}

/-! ## Known submits -/

/-- The submit is live or complete. -/
def NpuSchedulerState.Known (s : NpuSchedulerState W) (taskId : RknpuQueueTaskId) : Prop :=
  s.tasks[taskId]? ≠ none ∨ s.complete[taskId]? ≠ none

theorem Agrees.known_iff {s : NpuSchedulerState W} {taskId : RknpuQueueTaskId} {ℓ : Life} (h : Agrees s taskId ℓ) :
    s.Known taskId ↔ ℓ.place ≠ .gone := by
  unfold NpuSchedulerState.Known
  rw [h.tasks, h.complete]
  cases ℓ.place <;> simp

namespace Sys.Inv

variable {y y' : Sys W}

theorem exists_agrees (h : y.Inv) (taskId : RknpuQueueTaskId) : ∃ ℓ, Agrees y.state taskId ℓ := by
  by_cases hmem : taskId ∈ enqueuedIds y.hist
  · obtain ⟨queued, timeNs, he⟩ := mem_enqueuedIds.mp hmem
    obtain ⟨_, ℓ, _, hagree⟩ := h.lives taskId queued timeNs he
    exact ⟨ℓ, hagree⟩
  · exact ⟨_, (h.unknown taskId hmem).2 (RknpuQueueTask.new taskId (RknpuQueuedSubmit.new .default []))⟩

/-- A section makes no submit known again. -/
theorem known_of_section (h : y.Inv) (hsec : y.Section y') {taskId : RknpuQueueTaskId}
    (hk : y'.state.Known taskId) : y.state.Known taskId := by
  obtain ⟨⟨evs, _, _, htracks⟩, _, _, _⟩ := hsec
  obtain ⟨ℓ, hagree⟩ := h.exists_agrees taskId
  obtain ⟨ℓ', hsteps, hagree'⟩ := htracks taskId ℓ hagree
  rw [hagree.known_iff]
  exact fun hg => hagree'.known_iff.mp hk (hsteps.gone hg)

end Sys.Inv

/-! ## Sections and waiters -/

namespace NpuSchedulerState

variable {s : NpuSchedulerState W}

theorem Decided.waiters {r : Option DispatchSetup × NpuSchedulerState W} (h : Decided s r) :
    r.2.waiters = s.waiters := by
  cases h with
  | nothing _ => rfl
  | continued _ _ _ => rfl
  | promoted _ _ _ _ => rfl

theorem waiters_harvestCompletions (completions : List (CoreCompletion × UInt64)) (s : NpuSchedulerState W) :
    (s.harvestCompletions completions).2.waiters = s.waiters := by
  induction completions generalizing s with
  | nil => rfl
  | cons c completions ih =>
      rw [harvestCompletions_cons]
      exact (ih _).trans (harvestCompletion_frame s c.1 c.2).2

theorem waiters_wakeTerminalTasks (prepareError : Bool) (taskIds : List RknpuQueueTaskId)
    (s : NpuSchedulerState W) : (s.wakeTerminalTasks prepareError taskIds).2.waiters = s.waiters := by
  induction taskIds generalizing s with
  | nil => rfl
  | cons id taskIds ih => exact (ih _).trans (waiters_wakeTask s prepareError id)

theorem waiters_abortWait (s : NpuSchedulerState W) (taskId : RknpuQueueTaskId) :
    (s.abortWait taskId).waiters = s.waiters.erase taskId := by
  rcases abortWait_cases s taskId with he | ⟨complete, _, he⟩
  · rw [he]
  · rw [he]
    exact (reclassifyTask_frame _ taskId).2

end NpuSchedulerState

/-! ## Steps that leave a submit to its waiter -/

/-- The action is an enqueue, an abort or a take for this id. -/
def Sys.Concerns (y : Sys W) (taskId : RknpuQueueTaskId) : Act W → Prop
  | .enqueue .. => y.nextQueueTaskId = taskId
  | .abort id | .take id => id = taskId
  | _ => False

theorem Sys.Inv.waiters_step {y y' : Sys W} (h : y.Inv) {a : Act W} (hs : y.step a = some y')
    {taskId : RknpuQueueTaskId} (ha : ¬ y.Concerns taskId a) :
    y'.state.waiters[taskId]? = y.state.waiters[taskId]? := by
  cases Sys.step_cases hs with
  | enqueue submit tasks t0Ns waiter timeNs => exact Std.ExtTreeMap.getElem?_insert_of_ne ha
  | decide _ =>
      have hsame := (NpuSchedulerState.dispatchDecision_decided h.queues.readyWF).waiters
      unfold Sys.decide
      split
      · rename_i he
        rw [he] at hsame
        exact congrArg (·[taskId]?) hsame
      · rename_i he
        rw [he] at hsame
        exact congrArg (·[taskId]?) hsame
  | launch timeNs _ => rfl
  | fail err _ => exact congrArg (·[taskId]?) (NpuSchedulerState.reclassifyTask_frame _ _).2
  | harvest completions _ =>
      exact congrArg (·[taskId]?) (NpuSchedulerState.waiters_harvestCompletions completions y.state)
  | wake deviceError _ => exact congrArg (·[taskId]?) (NpuSchedulerState.waiters_wakeTerminalTasks _ _ y.state)
  | abort id =>
      rw [Sys.abort, NpuSchedulerState.waiters_abortWait]
      exact Std.ExtTreeMap.getElem?_erase_of_ne ha
  | take id =>
      simp only [Sys.take, NpuSchedulerState.takeTerminalSubmit]
      split
      · rfl
      · exact Std.ExtTreeMap.getElem?_erase_of_ne ha

/-- Only its enqueue makes a submit known. -/
theorem Sys.Inv.known_of_step {y y' : Sys W} (h : y.Inv) {a : Act W} (hs : y.step a = some y')
    {taskId : RknpuQueueTaskId} (hk : y'.state.Known taskId) : y.state.Known taskId ∨ y.Concerns taskId a := by
  rcases h.step_cases hs with ⟨submit, tasks, t0Ns, waiter, timeNs, rfl, rfl⟩ | hsec
  · by_cases hid : taskId = y.nextQueueTaskId
    · exact .inr hid.symm
    · refine .inl (hk.imp_left fun htasks => ?_)
      rwa [Sys.tasks_enqueue_of_ne hid] at htasks
  · exact .inl (h.known_of_section hsec hk)

/-- Such a step does not take a submit away that has a waiter. -/
theorem Sys.Inv.stays_step {y y' : Sys W} (h : y.Inv) {a : Act W} (hfit : y'.IdsFit) (hs : y.step a = some y')
    {taskId : RknpuQueueTaskId} (ha : ¬ y.Concerns taskId a) (hmem : taskId ∈ enqueuedIds y.hist)
    (hwaiter : y.state.waiters[taskId]? ≠ none) :
    (y.state.Known taskId → y'.state.Known taskId) ∧
      (y.state.complete[taskId]? ≠ none → y'.state.complete[taskId]? ≠ none) := by
  obtain ⟨ℓ, hagree⟩ := h.exists_agrees taskId
  obtain ⟨evs, ℓ', _, hsteps, hagree', hkinds⟩ := h.lives_step hfit hs hmem hagree
  have hno : ∀ e ∈ evs, ¬ e.Removes := by
    intro e he hremoves
    cases hkinds e he with
    | wake hwake =>
        cases hwake with
        | readFailed => cases hremoves
        | woken => cases hremoves
        | dropped _ hnone => exact hwaiter hnone
    | harvest hharvest => cases hharvest <;> cases hremoves
    | aborted => exact ha rfl
    | taken => exact ha rfl
    | reserved => cases hremoves
    | launched => cases hremoves
    | failed => cases hremoves
  obtain ⟨hgone, hcomplete⟩ := hsteps.stays hno
  rw [hagree.known_iff, hagree'.known_iff, hagree.complete, hagree'.complete]
  refine ⟨hgone, fun hc => ?_⟩
  rw [if_pos (hcomplete _)]
  · exact nofun
  · by_contra hne
    exact hc (if_neg hne)

/-! ## Giving a submit up -/

/-- The abort of a known submit is recorded. -/
theorem Sys.mem_hist_abort {y : Sys W} {taskId : RknpuQueueTaskId} (h : y.state.Known taskId) :
    .submit taskId .aborted ∈ (y.abort taskId).hist := by
  refine List.mem_append_left _ (List.mem_append_right _ ?_)
  rw [if_pos]
  · exact List.mem_singleton_self _
  · rw [Bool.or_eq_true, Std.ExtTreeMap.contains_eq_isSome_getElem?, Std.ExtTreeMap.contains_eq_isSome_getElem?,
      Option.isSome_iff_ne_none, Option.isSome_iff_ne_none]
    exact h

theorem Sys.state_take {y : Sys W} {taskId : RknpuQueueTaskId} {task : RknpuQueueTask}
    (hc : y.state.complete[taskId]? = some task) :
    (y.take taskId).state =
      { y.state with complete := y.state.complete.erase taskId, waiters := y.state.waiters.erase taskId } := by
  simp only [Sys.take, NpuSchedulerState.takeTerminalSubmit, hc]

/-- The record that is taken is gone from both maps. -/
theorem Sys.Inv.not_known_take {y : Sys W} (h : y.Inv) {taskId : RknpuQueueTaskId} {task : RknpuQueueTask}
    (hc : y.state.complete[taskId]? = some task) : ¬ (y.take taskId).state.Known taskId := by
  obtain ⟨ℓ, hagree⟩ := h.exists_agrees taskId
  have htasks := hagree.tasks
  rw [(hagree.done hc).1] at htasks
  rw [NpuSchedulerState.Known, Sys.state_take hc, Std.ExtTreeMap.getElem?_erase_self, htasks]
  simp

/-! ## Every run -/

/-- Until its wait is aborted, a known submit has a waiter and no record is dropped. -/
structure Sys.Waited (y : Sys W) : Prop where
  waiter : ∀ id, .submit id .aborted ∉ y.hist → y.state.Known id → y.state.waiters[id]? ≠ none
  dropped : ∀ id, .submit id .aborted ∉ y.hist → .submit id .dropped ∉ y.hist

/-- The three actions that concern a submit: its enqueue registers the waiter, an abort is recorded, and a submit that
is taken is gone. -/
theorem Sys.Waited.waiter_of_concerns {y y' : Sys W} (hw : y.Waited) (h : y.Inv) {a : Act W} (hs : y.step a = some y')
    {taskId : RknpuQueueTaskId} (ha : y.Concerns taskId a) (hno : .submit taskId .aborted ∉ y'.hist)
    (hk : y'.state.Known taskId) : y'.state.waiters[taskId]? ≠ none := by
  cases Sys.step_cases hs with
  | enqueue submit tasks t0Ns waiter timeNs =>
      cases ha
      exact ne_of_eq_of_ne Std.ExtTreeMap.getElem?_insert_self nofun
  | abort =>
      cases ha
      exact (hno (Sys.mem_hist_abort (h.known_of_section (h.abort taskId) hk))).elim
  | take =>
      cases ha
      cases hc : y.state.complete[taskId]? with
      | none =>
          have hstate : (y.take taskId).state = y.state := by
            simp only [Sys.take, NpuSchedulerState.takeTerminalSubmit, hc]
          rw [hstate] at hk ⊢
          exact hw.waiter taskId (fun hmem => hno ((Sys.step_hist hs).subset hmem)) hk
      | some task => exact (h.not_known_take hc hk).elim
  | _ => cases ha

theorem Sys.Waited.step {y y' : Sys W} (hw : y.Waited) (h : y.Inv) {a : Act W} (hs : y.step a = some y') :
    y'.Waited := by
  have hmono : ∀ {e}, e ∉ y'.hist → e ∉ y.hist := fun hno hmem => hno ((Sys.step_hist hs).subset hmem)
  refine ⟨fun id hno hk => ?_, fun id hno hmem => ?_⟩
  · by_cases ha : y.Concerns id a
    · exact hw.waiter_of_concerns h hs ha hno hk
    · rw [h.waiters_step hs ha]
      exact hw.waiter id (hmono hno) ((h.known_of_step hs hk).resolve_right ha)
  · obtain ⟨evs, hhist, hkinds⟩ := Sys.step_events hs
    rw [hhist, List.mem_append] at hmem
    rcases hmem with hmem | hmem
    · exact hw.dropped id (hmono hno) hmem
    · cases hkinds _ hmem with
      | harvest hharvest => cases hharvest
      | wake hwake =>
          cases hwake with
          | dropped hc hnone => exact hw.waiter id (hmono hno) (.inr hc) hnone

/-- In every run that hands out no id twice, a submit has its waiter until it is aborted or taken. -/
theorem Sys.waited_of_run {acts : List (Act W)} {y : Sys W} (hrun : (scheduler W).run acts = some y)
    (hfit : y.IdsFit) : y.Waited := by
  refine Machine.run_induction (M := scheduler W) (P := fun _ y => y.IdsFit → y.Waited) ?_ ?_ hrun hfit
  · exact fun _ => ⟨fun id _ hk => by simp [NpuSchedulerState.Known, scheduler, Sys.init, NpuSchedulerState.new] at hk, nofun⟩
  · intro _ y a y' hrun ih hs hfit'
    have hfit := hfit'.of_step hs
    exact (ih hfit).step (Sys.inv_of_run hrun hfit) hs

end Rknpu.Service
