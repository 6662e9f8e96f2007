import Rknpu.Service.Dispatch
import Rknpu.Service.Lemmas.Measure
import Rknpu.Service.Lemmas.Queued
import Rknpu.Service.Theorems.Completion

/-!
# The dispatch loop gives up late and ends soon

When `dispatch_idle_cores` returns, no idle core could take a task of a live submit. It returns: an accepted
dispatch uses up an idle core, and a refused one leaves its submit with an error for good.
-/

namespace Rknpu.Service

open Queue

variable {W : Type}

/-! ## The loop is a run of the scheduler -/

theorem Sys.outside_worker (y : Sys W) (sections : List (Outside W)) : (y.outside sections).worker = y.worker := by
  induction sections generalizing y with
  | nil => rfl
  | cons o sections ih =>
      refine (ih _).trans ?_
      cases o <;> rfl

theorem Sys.reaches_outside {y₀ y : Sys W} (h : (scheduler W).Reaches y₀ y) (sections : List (Outside W)) :
    (scheduler W).Reaches y₀ (y.outside sections) := by
  induction sections generalizing y with
  | nil => exact h
  | cons o sections ih =>
      refine ih (h.step (a := o.act) ?_)
      cases o <;> rfl

/-- The loop goes on from a state of the run in which the worker is free again. -/
theorem DispatchLoop.reaches_turn {y₀ : Sys W} (turns : Nat → Turn W) (k : Nat) (l l' : DispatchLoop W)
    (h : (scheduler W).Reaches y₀ l.sys ∧ l.sys.worker = .free) (hturn : l.turn turns k = .inl l') :
    (scheduler W).Reaches y₀ l'.sys ∧ l'.sys.worker = .free := by
  unfold DispatchLoop.turn at hturn
  have hw := (l.sys.outside_worker (turns k).beforeDecision).trans h.2
  have hreach := Sys.reaches_outside h.1 (turns k).beforeDecision
  generalize l.sys.outside (turns k).beforeDecision = y at hturn hw hreach
  dsimp only at hturn
  split at hturn
  · cases hturn
  · rename_i setup hdec
    have hdecide : (scheduler W).Reaches y₀ y.decide := hreach.step (a := .decide) (if_pos hw)
    have hdisp := (y.decide.outside_worker (turns k).beforeAnswer).trans (Sys.decide_eq hdec).1
    have hreach' := Sys.reaches_outside hdecide (turns k).beforeAnswer
    generalize y.decide.outside (turns k).beforeAnswer = y₁ at hturn hdisp hreach'
    split at hturn
    · rename_i timeNs _
      cases hturn
      refine ⟨hreach'.step (a := .launch timeNs) ?_, rfl⟩
      simp only [scheduler, Sys.step, hdisp]
    · rename_i err _
      cases hturn
      have hfail : (scheduler W).Reaches y₀ (y₁.fail setup err.toDriverError) := by
        refine hreach'.step (a := .fail err.toDriverError) ?_
        simp only [scheduler, Sys.step, hdisp]
      have hwake := Sys.outside_worker (y₁.fail setup err.toDriverError) (turns k).beforeWake
      have hreach'' := Sys.reaches_outside hfail (turns k).beforeWake
      generalize (y₁.fail setup err.toDriverError).outside (turns k).beforeWake = y₂ at hwake hreach''
      unfold Sys.wakeFailed
      rw [hwake]
      refine ⟨hreach''.step (a := .wake false) ?_, rfl⟩
      simp only [scheduler, Sys.step, hwake, Sys.fail, Bool.and_false]

/-! ## Work conservation -/

/-- When the loop returns, no live submit with a task to dispatch allows an unbound core. -/
theorem work_conserved {acts : List (Act W)} {y : Sys W} (hrun : (scheduler W).run acts = some y)
    (hw : y.worker = .free) {turns : Nat → Turn W} {fuel attempts : Nat} {dispatched : Bool} {y' : Sys W}
    (h : y.dispatchIdleCores turns fuel = some (attempts, dispatched, y')) {coreSlot : Nat}
    (hcore : coreSlot < npuMaxCores) (hidle : y'.state.coreBinding[coreSlot]? = none)
    {taskId : RknpuQueueTaskId} {t : RknpuQueueTask} (ht : y'.state.tasks[taskId]? = some t)
    (hdisp : t.hasDispatchableTask = true) : t.allowsCore coreSlot = false := by
  obtain ⟨l, ⟨hreach, _⟩, hturn⟩ := loopFor_inv (DispatchLoop.reaches_turn turns) h ⟨⟨acts, hrun⟩, hw⟩
  unfold DispatchLoop.turn at hturn
  obtain ⟨acts', hrun'⟩ := Sys.reaches_outside hreach (turns attempts).beforeDecision
  have hqueued := Sys.queued_of_run hrun'
  generalize l.sys.outside (turns attempts).beforeDecision = y₁ at hturn hqueued
  dsimp only at hturn
  split at hturn
  · rename_i hnone
    cases hturn
    rw [Sys.decide_state hqueued hnone] at hidle ht
    exact hqueued.nothing_fits hnone (NpuSchedulerState.mem_idleCores.mpr ⟨hcore, hidle⟩) ht hdisp
  · rename_i setup _
    split at hturn <;> cases hturn

/-- The driver accepts every dispatch and no other thread runs. -/
def acceptingTurn (timeNs : UInt64) : Turn W where
  beforeDecision := []
  confirm := .ok ()
  submit := .ok timeNs
  beforeAnswer := []
  beforeWake := []

/-- One submit with two lanes, and a third core that nothing is left for. -/
theorem work_conserved_pair : ∃ y y' : Sys Unit,
    (scheduler Unit).run [.enqueue (twoLanes 2 ⟨0, 1⟩ ⟨1, 1⟩) [plainTask, plainTask] 0 () 0] = some y ∧
    y.dispatchIdleCores (fun _ => acceptingTurn 5) 4 = some (2, true, y') ∧
    y'.state.coreBinding[2]? = none ∧
    ∀ (taskId : RknpuQueueTaskId) (t : RknpuQueueTask), y'.state.tasks[taskId]? = some t →
      t.hasDispatchableTask = true → t.allowsCore 2 = false := by
  obtain ⟨y, hrun, h⟩ : ∃ y : Sys Unit,
      (scheduler Unit).run [.enqueue (twoLanes 2 ⟨0, 1⟩ ⟨1, 1⟩) [plainTask, plainTask] 0 () 0] = some y ∧
      (decide (y.worker = .free) && (y.dispatchIdleCores (fun _ => acceptingTurn 5) 4).any fun r =>
        decide (r.1 = 2 ∧ r.2.1 = true ∧ r.2.2.state.coreBinding[2]? = none)) = true :=
    (Option.any_eq_true _ _).mp (by decide +kernel)
  rw [Bool.and_eq_true, decide_eq_true_eq] at h
  obtain ⟨⟨attempts, dispatched, y'⟩, hloop, hr⟩ := (Option.any_eq_true _ _).mp h.2
  obtain ⟨rfl, rfl, hidle⟩ : attempts = 2 ∧ dispatched = true ∧ y'.state.coreBinding[2]? = none :=
    of_decide_eq_true hr
  exact ⟨y, y', hrun, hloop, hidle, fun _ _ ht hdisp => work_conserved hrun h.1 hloop (by decide) hidle ht hdisp⟩

/-! ## Bounded dispatch -/

def Outside.isEnqueue : Outside W → Bool
  | .enqueue .. => true
  | _ => false

theorem Sys.shrinks_outside (y : Sys W) {sections : List (Outside W)} (h : ∀ o ∈ sections, o.isEnqueue = false) :
    NpuSchedulerState.Shrinks y.state (y.outside sections).state := by
  induction sections generalizing y with
  | nil => exact NpuSchedulerState.Shrinks.refl _
  | cons o sections ih =>
      have hfirst : NpuSchedulerState.Shrinks y.state (y.outsideStep o).state := by
        cases o with
        | enqueue => cases h _ List.mem_cons_self
        | abort taskId => exact NpuSchedulerState.shrinks_abortWait y.state taskId
        | take taskId => exact NpuSchedulerState.shrinks_takeTerminalSubmit y.state taskId
      exact hfirst.trans (ih _ fun o' ho' => h o' (List.mem_cons_of_mem _ ho'))

/-- No other thread enqueues during the turn. -/
structure Turn.Quiet (turn : Turn W) : Prop where
  decision : ∀ o ∈ turn.beforeDecision, o.isEnqueue = false
  answer : ∀ o ∈ turn.beforeAnswer, o.isEnqueue = false
  wake : ∀ o ∈ turn.beforeWake, o.isEnqueue = false

theorem Sys.shrinks_wakeFailed (y : Sys W) : NpuSchedulerState.Shrinks y.state y.wakeFailed.state := by
  unfold Sys.wakeFailed
  split
  · exact NpuSchedulerState.shrinks_wakeTerminalTasks false _ y.state
  · exact NpuSchedulerState.Shrinks.refl _

/-- Every attempt lowers the budget. -/
theorem DispatchLoop.budget_turn {turns : Nat → Turn W} (hquiet : ∀ k, (turns k).Quiet) (k : Nat)
    (l l' : DispatchLoop W) (h : (scheduler W).Reaches (scheduler W).init l.sys ∧ l.sys.worker = .free)
    (hturn : l.turn turns k = .inl l') :
    l'.sys.state.dispatchBudget < l.sys.state.dispatchBudget := by
  unfold DispatchLoop.turn at hturn
  have hbefore := (l.sys.shrinks_outside (hquiet k).decision).budget_le
  obtain ⟨acts, hrun⟩ := Sys.reaches_outside h.1 (turns k).beforeDecision
  have hdec := NpuSchedulerState.dispatchDecision_decided (Sys.queued_of_run hrun).readyWF
  generalize l.sys.outside (turns k).beforeDecision = y at hturn hbefore hdec
  dsimp only at hturn
  refine lt_of_lt_of_le ?_ hbefore
  split at hturn
  · cases hturn
  · rename_i setup hsome
    have hbinds := hdec.binds hsome
    rw [← (Sys.decide_eq hsome).2] at hbinds
    have hanswer := y.decide.shrinks_outside (hquiet k).answer
    generalize y.decide.outside (turns k).beforeAnswer = y₁ at hturn hanswer
    split at hturn
    · rename_i timeNs _
      cases hturn
      have hlaunch := NpuSchedulerState.shrinks_markDispatched y₁.state setup.binding.taskId timeNs
      exact lt_of_le_of_lt (hanswer.trans hlaunch).budget_le hbinds.budget_lt
    · rename_i err _
      cases hturn
      have hwake := ((y₁.fail setup err.toDriverError).shrinks_outside (hquiet k).wake).trans
        (Sys.shrinks_wakeFailed _)
      exact lt_of_le_of_lt hwake.budget_le (hbinds.budget_failDispatch hanswer err.toDriverError)

/-- Without concurrent enqueues the loop returns, after at most three attempts more than there were live submits
without an error. -/
theorem dispatch_bounded {acts : List (Act W)} {y : Sys W} (hrun : (scheduler W).run acts = some y)
    (hw : y.worker = .free) {turns : Nat → Turn W} (hquiet : ∀ k, (turns k).Quiet) {fuel : Nat}
    (hfuel : y.state.errorFree.length + 3 < fuel) :
    ∃ attempts dispatched y', y.dispatchIdleCores turns fuel = some (attempts, dispatched, y') ∧
      attempts ≤ y.state.errorFree.length + 3 := by
  have hle : y.state.dispatchBudget ≤ y.state.errorFree.length + 3 := y.state.dispatchBudget_le
  obtain ⟨attempts, ⟨dispatched, y'⟩, hloop, hn⟩ := loopFor_returns (k := 0)
    (s := { sys := y, dispatched := false, confirmedSubmitIds := [] })
    (DispatchLoop.reaches_turn turns) (fun l => l.sys.state.dispatchBudget) (DispatchLoop.budget_turn hquiet)
    ⟨⟨acts, hrun⟩, hw⟩ (lt_of_le_of_lt hle hfuel)
  rw [Nat.zero_add] at hn
  exact ⟨attempts, dispatched, y', hloop, hn.trans hle⟩

/-- The driver refuses every dispatch. -/
def refusingTurn : Turn W := { acceptingTurn 0 with submit := .error .busy }

theorem dispatch_bounded_refused : ∃ y : Sys Unit,
    (scheduler Unit).run [.enqueue (twoLanes 2 ⟨0, 1⟩ ⟨1, 1⟩) [plainTask, plainTask] 0 () 0] = some y ∧
    ∃ attempts dispatched y', y.dispatchIdleCores (fun _ => refusingTurn) 5 = some (attempts, dispatched, y') ∧
      attempts ≤ y.state.errorFree.length + 3 := by
  obtain ⟨y, hrun, h⟩ : ∃ y : Sys Unit,
      (scheduler Unit).run [.enqueue (twoLanes 2 ⟨0, 1⟩ ⟨1, 1⟩) [plainTask, plainTask] 0 () 0] = some y ∧
      decide (y.worker = .free ∧ y.state.errorFree.length = 1) = true :=
    (Option.any_eq_true _ _).mp (by decide +kernel)
  obtain ⟨hw, hone⟩ := of_decide_eq_true h
  refine ⟨y, hrun, dispatch_bounded hrun hw (fun _ => ?_) (by rw [hone]; decide)⟩
  exact ⟨List.forall_mem_nil _, List.forall_mem_nil _, List.forall_mem_nil _⟩

end Rknpu.Service
