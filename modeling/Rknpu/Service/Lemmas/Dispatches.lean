import Rknpu.Service.Lemmas.Tracking

/-!
# Dispatches of a run

The worker reserves a task, and before it takes another decision the driver either accepts the dispatch or
refuses it. So without refusals the tasks launched for a submit are the tasks reserved for it, in the same
order, up to the one that is being dispatched.
-/

namespace Rknpu.Service

open Queue

variable {W : Type}

/-! ## What a step does to the dispatch in progress -/

/-- No dispatch is decided or answered by these events. -/
def NoDispatch (evs : List Event) : Prop :=
  ∀ taskId, reservedSlots (eventsOf taskId evs) = [] ∧ launchedSlots (eventsOf taskId evs) = [] ∧
    failedSlots (eventsOf taskId evs) = []

theorem NoDispatch.nil : NoDispatch [] := fun _ => ⟨rfl, rfl, rfl⟩

theorem NoDispatch.append {evs evs' : List Event} (h : NoDispatch evs) (h' : NoDispatch evs') :
    NoDispatch (evs ++ evs') := by
  intro taskId
  obtain ⟨h₁, h₂, h₃⟩ := h taskId
  obtain ⟨h₁', h₂', h₃'⟩ := h' taskId
  simp [h₁, h₂, h₃, h₁', h₂', h₃']

theorem NoDispatch.submit {taskId : RknpuQueueTaskId} {e : SubmitEvent}
    (h : reservedSlots [e] = [] ∧ launchedSlots [e] = [] ∧ failedSlots [e] = []) :
    NoDispatch [.submit taskId e] := by
  intro id
  by_cases hid : taskId = id
  · subst hid
    rw [eventsOf_submit_self]
    exact h
  · rw [eventsOf_submit_of_ne hid]
    exact ⟨rfl, rfl, rfl⟩

theorem NoDispatch.moved (moved : Option RknpuQueueTaskId) (s : NpuSchedulerState W) :
    NoDispatch (Sys.movedEvent moved s) := by
  intro id
  rw [eventsOf_movedEvent]
  exact ⟨rfl, rfl, rfl⟩

theorem NoDispatch.of_forall {evs : List Event}
    (h : ∀ taskId e, .submit taskId e ∈ evs → reservedSlots [e] = [] ∧ launchedSlots [e] = [] ∧ failedSlots [e] = []) :
    NoDispatch evs := by
  induction evs with
  | nil => exact .nil
  | cons ev evs ih =>
      have hrest := ih fun taskId e hmem => h taskId e (List.mem_cons_of_mem _ hmem)
      rw [← List.singleton_append]
      refine NoDispatch.append ?_ hrest
      cases ev with
      | submit taskId e => exact .submit (h taskId e (List.mem_cons_self ..))
      | enqueued => exact fun _ => ⟨rfl, rfl, rfl⟩
      | moved => exact fun _ => ⟨rfl, rfl, rfl⟩

theorem NoDispatch.harvestEvents (completions : List (CoreCompletion × UInt64)) (s : NpuSchedulerState W) :
    NoDispatch (Sys.harvestEvents completions s) := by
  refine .of_forall fun taskId e hmem => ?_
  cases HarvestEvent.of_mem hmem with
  | harvested => exact ⟨rfl, rfl, rfl⟩
  | orphaned => exact ⟨rfl, rfl, rfl⟩

theorem NoDispatch.wakeEvents (prepareError : Bool) (taskIds : List RknpuQueueTaskId) (s : NpuSchedulerState W) :
    NoDispatch (Sys.wakeEvents prepareError taskIds s) := by
  refine .of_forall fun taskId e hmem => ?_
  cases WakeEvent.of_mem hmem with
  | readFailed => exact ⟨rfl, rfl, rfl⟩
  | woken => exact ⟨rfl, rfl, rfl⟩
  | dropped => exact ⟨rfl, rfl, rfl⟩

/-- How the worker's dispatch and the events of a step go together. -/
inductive Dispatching : WorkerPhase → List Event → WorkerPhase → Prop where
  | reserve (setup : DispatchSetup) :
      Dispatching .free [.submit setup.binding.taskId (.reserved (setup.binding.slot setup.coreSlot))]
        (.dispatching setup)
  | launch (setup : DispatchSetup) (timeNs : UInt64) :
      Dispatching (.dispatching setup)
        [.submit setup.binding.taskId (.launched (setup.binding.slot setup.coreSlot) timeNs)] .free
  | fail (setup : DispatchSetup) (err : RknpuError) (moved : List Event) (taskIds : List RknpuQueueTaskId) :
      NoDispatch moved →
      Dispatching (.dispatching setup)
        ([.submit setup.binding.taskId (.failed (setup.binding.slot setup.coreSlot) err)] ++ moved)
        (.waking taskIds false)
  | other {w w' : WorkerPhase} {evs : List Event} :
      NoDispatch evs → (∀ setup, w' = .dispatching setup ↔ w = .dispatching setup) → Dispatching w evs w'

theorem Sys.step_dispatching {y y' : Sys W} {a : Act W} (hs : y.step a = some y') :
    ∃ evs, y'.hist = y.hist ++ evs ∧ Dispatching y.worker evs y'.worker := by
  cases Sys.step_cases hs with
  | enqueue submit tasks t0Ns waiter timeNs => exact ⟨_, rfl, .other (fun _ => ⟨rfl, rfl, rfl⟩) fun _ => Iff.rfl⟩
  | decide hw =>
      unfold Sys.decide
      split
      · exact ⟨[], (List.append_nil _).symm, .other .nil fun _ => Iff.rfl⟩
      · rename_i setup state _
        exact ⟨_, rfl, by rw [hw]; exact .reserve setup⟩
  | @launch setup timeNs hw => exact ⟨_, rfl, by rw [hw]; exact .launch setup timeNs⟩
  | @fail setup err hw => exact ⟨_, List.append_assoc .., by rw [hw]; exact .fail setup err _ _ (.moved _ _)⟩
  | harvest completions hw =>
      refine ⟨_, rfl, .other (.harvestEvents completions _) fun _ => ?_⟩
      rw [hw]
      exact iff_of_false nofun nofun
  | wake deviceError hw =>
      refine ⟨_, rfl, .other (.wakeEvents _ _ _) fun _ => ?_⟩
      rw [hw]
      exact iff_of_false nofun nofun
  | abort taskId =>
      refine ⟨_, List.append_assoc .., .other (.append ?_ (.moved _ _)) fun _ => Iff.rfl⟩
      split
      · exact .submit ⟨rfl, rfl, rfl⟩
      · exact .nil
  | take taskId =>
      refine ⟨_, rfl, .other ?_ fun _ => Iff.rfl⟩
      cases y.state.complete[taskId]? with
      | none => exact .nil
      | some task => exact .submit ⟨rfl, rfl, rfl⟩

/-! ## Reserved and launched tasks -/

/-- The task of a submit that is being dispatched. -/
def pendingSlots (taskId : RknpuQueueTaskId) : WorkerPhase → List Slot
  | .dispatching setup => if setup.binding.taskId = taskId then [setup.binding.slot setup.coreSlot] else []
  | _ => []

theorem pendingSlots_congr {w w' : WorkerPhase} (h : ∀ setup, w' = .dispatching setup ↔ w = .dispatching setup)
    (taskId : RknpuQueueTaskId) : pendingSlots taskId w' = pendingSlots taskId w := by
  cases w' with
  | dispatching setup => rw [(h setup).mp rfl]
  | free =>
      cases w with
      | dispatching setup => cases (h setup).mpr rfl
      | free => rfl
      | waking => rfl
  | waking taskIds prepareRead =>
      cases w with
      | dispatching setup => cases (h setup).mpr rfl
      | free => rfl
      | waking => rfl

/-- Without a failed dispatch, what was reserved was launched in the same order. -/
theorem reservedSlots_eq_launchedSlots {acts : List (Act W)} {y : Sys W} (hrun : (scheduler W).run acts = some y)
    {taskId : RknpuQueueTaskId} (hfail : failedSlots (eventsOf taskId y.hist) = []) :
    reservedSlots (eventsOf taskId y.hist) = launchedSlots (eventsOf taskId y.hist) ++ pendingSlots taskId y.worker := by
  refine Machine.run_induction (M := scheduler W) (P := fun _ y => failedSlots (eventsOf taskId y.hist) = [] →
    reservedSlots (eventsOf taskId y.hist) =
      launchedSlots (eventsOf taskId y.hist) ++ pendingSlots taskId y.worker) ?_ ?_ hrun hfail
  · exact fun _ => rfl
  · intro _ y a y' _ ih hs hfail
    obtain ⟨evs, hhist, hdisp⟩ := Sys.step_dispatching hs
    rw [hhist, eventsOf_append] at hfail ⊢
    rw [failedSlots_append, List.append_eq_nil_iff] at hfail
    have hbefore := ih hfail.1
    rw [reservedSlots_append, launchedSlots_append]
    generalize y.worker = w, y'.worker = w' at hbefore hdisp ⊢
    cases hdisp with
    | reserve setup =>
        by_cases hid : setup.binding.taskId = taskId
        · subst hid
          rw [hbefore, eventsOf_submit_self]
          simp [pendingSlots, reservedSlots, launchedSlots]
        · rw [hbefore, eventsOf_submit_of_ne hid]
          simp [pendingSlots, hid, reservedSlots, launchedSlots]
    | launch setup timeNs =>
        by_cases hid : setup.binding.taskId = taskId
        · subst hid
          rw [hbefore, eventsOf_submit_self]
          simp [pendingSlots, reservedSlots, launchedSlots]
        · rw [hbefore, eventsOf_submit_of_ne hid]
          simp [pendingSlots, hid, reservedSlots, launchedSlots]
    | fail setup err moved taskIds hmoved =>
        obtain ⟨h₁, h₂, _⟩ := hmoved taskId
        by_cases hid : setup.binding.taskId = taskId
        · subst hid
          rw [eventsOf_append, eventsOf_submit_self] at hfail
          cases hfail.2
        · rw [hbefore, eventsOf_append, eventsOf_submit_of_ne hid, List.nil_append, h₁, h₂]
          simp [pendingSlots, hid]
    | other hno hiff =>
        obtain ⟨h₁, h₂, _⟩ := hno taskId
        rw [hbefore, h₁, h₂, pendingSlots_congr hiff, List.append_nil, List.append_nil]

end Rknpu.Service
