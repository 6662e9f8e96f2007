import Rknpu.Queue.Lemmas.Fault
import Rknpu.Service.Theorems.Fault

/-!
# Nothing is left behind

When the last call has returned, the last core was given back and the last list of terminal submits has been worked
off, the maps of the scheduler are empty again.
-/

namespace Rknpu.Service

open Queue

/-! ## Quiescence -/

/-- Every submit ioctl has returned. -/
def Clients.AllReturned (c : Clients) : Prop := ∀ thread, c.outside thread = true

instance (c : Clients) : Decidable c.AllReturned :=
  decidable_of_iff (∀ entry ∈ c.calls.toList, c.outside entry.1 = true) <| by
    constructor
    · intro h thread
      cases hcall : c.calls[thread]? with
      | none => simp only [Clients.outside, hcall]
      | some call => exact h (thread, call) (Std.ExtTreeMap.mem_toList_iff_getElem?_eq_some.mpr hcall)
    · exact fun h entry _ => h entry.1

/-- Every core that was bound for a submit was given back: the dispatch was refused, or its completion harvested. -/
def CoresReturned (hist : List Event) : Prop :=
  ∀ taskId, (reservedSlots (eventsOf taskId hist)).Perm (releasedSlots (eventsOf taskId hist))

/-- The submit that the event is about. -/
def Event.concerns : Event → RknpuQueueTaskId
  | .enqueued taskId _ _ | .submit taskId _ | .moved taskId _ => taskId

instance (hist : List Event) : Decidable (CoresReturned hist) :=
  decidable_of_iff ((hist.all fun e => (reservedSlots (eventsOf e.concerns hist)).isPerm
      (releasedSlots (eventsOf e.concerns hist))) = true) <| by
    rw [List.all_eq_true]
    constructor
    · intro h taskId
      cases hevents : eventsOf taskId hist with
      | nil => exact .refl _
      | cons e evs =>
          have hmem : .submit taskId e ∈ hist := mem_eventsOf.mp (hevents ▸ List.mem_cons_self ..)
          rw [← hevents]
          exact List.isPerm_iff.mp (h _ hmem)
    · exact fun h e _ => List.isPerm_iff.mpr (h e.concerns)

theorem CoresReturned.append {hist hist' : List Event} (h : CoresReturned hist) (h' : CoresReturned hist') :
    CoresReturned (hist ++ hist') := by
  intro taskId
  rw [eventsOf_append, reservedSlots_append, releasedSlots_append]
  exact (h taskId).append (h' taskId)

theorem Clients.OnlyAborts.coresReturned {evs : List Event} (h : OnlyAborts evs) : CoresReturned evs := by
  intro taskId
  have hreserved : reservedSlots (eventsOf taskId evs) = [] := by
    refine List.filterMap_eq_nil_iff.mpr fun e he => ?_
    rw [h taskId e (mem_eventsOf.mp he)]
  have hreleased : releasedSlots (eventsOf taskId evs) = [] := by
    refine List.filterMap_eq_nil_iff.mpr fun e he => ?_
    rw [h taskId e (mem_eventsOf.mp he)]
  rw [hreserved, hreleased]

/-- All maps are empty. -/
structure NpuSchedulerState.Drained {W : Type} (s : NpuSchedulerState W) : Prop where
  tasks : s.tasks = ∅
  ready : s.ready = ∅
  running : s.running = ∅
  complete : s.complete = ∅
  waiters : s.waiters = ∅
  coreBinding : s.coreBinding = ∅

/-! ## The maps one by one -/

section

variable {c : Clients}

theorem Sys.Inv.coreBinding_eq_empty {W : Type} {y : Sys W} (h : y.Inv) (hcores : CoresReturned y.hist) :
    y.state.coreBinding = ∅ := by
  have hinflight : ∀ taskId, inflightOf y.state.coreBinding taskId = [] := by
    intro taskId
    refine List.length_eq_zero_iff.mp ?_
    by_cases hmem : taskId ∈ enqueuedIds y.hist
    · obtain ⟨queued, timeNs, he⟩ := mem_enqueuedIds.mp hmem
      obtain ⟨_, ℓ, hreach, hagree⟩ := h.lives taskId queued timeNs he
      rw [hagree.inflight.length_eq, hreach.inflight_eq_nil (hcores taskId), List.length_nil]
    · have hagree := (h.unknown taskId hmem).2 (RknpuQueueTask.new taskId (RknpuQueuedSubmit.new .default []))
      exact hagree.inflight.length_eq
  refine Std.ExtTreeMap.eq_empty_of_getElem? fun coreSlot => ?_
  cases hbound : y.state.coreBinding[coreSlot]? with
  | none => rfl
  | some binding =>
      have hslot : binding.slot coreSlot ∈ inflightOf y.state.coreBinding binding.taskId :=
        mem_inflightOf.mpr ⟨binding, hbound, rfl, rfl⟩
      rw [hinflight] at hslot
      cases hslot

/-- A live submit that is aborted has a task in flight. -/
theorem Sys.Inv.not_live_of_aborted {W : Type} {y : Sys W} (h : y.Inv) (hcores : CoresReturned y.hist)
    {taskId : RknpuQueueTaskId} (haborted : .submit taskId .aborted ∈ y.hist) : y.state.tasks[taskId]? = none := by
  cases ht : y.state.tasks[taskId]? with
  | none => rfl
  | some t =>
      obtain ⟨queued, timeNs, fl, he, hfits, hreach, hagree⟩ := h.life ht
      have hinv := hreach.inv hfits
      have herr := hreach.lastError_of_aborted (mem_eventsOf.mpr haborted) rfl
      have hfl := (hinv.hasRunningTasks_iff rfl).mp (hinv.draining rfl herr)
      exact (hfl (hreach.inflight_eq_nil (hcores taskId))).elim

theorem Clients.AllReturned.not_owns (h : c.AllReturned) (thread : Nat) (taskId : RknpuQueueTaskId) :
    ¬ c.Owns thread taskId := Clients.Inv.not_owns_of_outside (h thread)

/-- When every submit ioctl has returned, every core that was bound was given back and `wake_terminal_tasks` has no
submit left to wake, nothing is left in the maps. -/
theorem maps_reclaimed {acts : List ClientAct} (hrun : clients.run acts = some c) (hfit : c.sys.IdsFit)
    (hreturned : c.AllReturned) (hcores : CoresReturned c.sys.hist) (hwakes : c.sys.worker.wakes = []) :
    c.sys.state.Drained := by
  obtain ⟨hsys, hattended⟩ := Clients.sys_of_run hrun hfit
  have hinv := Clients.inv_of_run hrun hfit
  have hwaiters : ∀ taskId : RknpuQueueTaskId, c.sys.state.waiters[taskId]? = none := by
    intro taskId
    by_contra hwaiter
    obtain ⟨thread, howns⟩ := hinv.registered taskId hwaiter
    exact hreturned.not_owns thread taskId howns
  have htasks : ∀ taskId : RknpuQueueTaskId, c.sys.state.tasks[taskId]? = none := by
    intro taskId
    by_contra hlive
    rcases hinv.owner taskId (.inl hlive) with ⟨thread, howns⟩ | haborted
    · exact hreturned.not_owns thread taskId howns
    · exact hlive (hsys.not_live_of_aborted hcores haborted)
  have hcomplete : ∀ taskId : RknpuQueueTaskId, c.sys.state.complete[taskId]? = none := by
    intro taskId
    by_contra hdone
    have hlisted := hattended.unwaited taskId hdone (hwaiters taskId)
    rw [hwakes] at hlisted
    cases hlisted
  have hqueued := fun p taskId => hsys.queues.not_memAt_of_absent (htasks taskId) p
  exact
    { tasks := Std.ExtTreeMap.eq_empty_of_getElem? htasks
      ready := hsys.queues.readyWF.eq_empty fun p taskId => (hqueued p taskId).1
      running := hsys.queues.runningWF.eq_empty fun p taskId => (hqueued p taskId).2
      complete := Std.ExtTreeMap.eq_empty_of_getElem? hcomplete
      waiters := Std.ExtTreeMap.eq_empty_of_getElem? hwaiters
      coreBinding := hsys.coreBinding_eq_empty hcores }

end

/-- Two calls with a task in flight each; the second one is interrupted before the completions come in. -/
def doneAndInterrupted : List ClientAct :=
  oneInFlight 0 ++ oneInFlight 1 ++
    [.call 0 .lookup, .call 1 .lookup, .call 1 (.wait (.error .interrupted)), .call 1 .abort,
      .worker (.harvest [(⟨0, 1, 0⟩, 0), (⟨1, 1, 0⟩, 0)]), .worker (.wake false), .signal, .call 0 (.wait (.ok ())),
      .call 0 .take, .call 0 (.copyBack (.ok ()) (.ok ()))]

theorem maps_reclaimed_doneAndInterrupted : ∃ c : Clients, clients.run doneAndInterrupted = some c ∧
    enqueuedIds c.sys.hist = [1, 2] ∧ c.sys.state.Drained := by
  obtain ⟨c, hrun, hc⟩ := (Option.any_eq_true (fun c : Clients => decide (c.sys.IdsFit ∧ c.AllReturned ∧
    CoresReturned c.sys.hist ∧ c.sys.worker.wakes = [] ∧ enqueuedIds c.sys.hist = [1, 2])) _).mp
    (show (clients.run doneAndInterrupted).any _ = true by decide +kernel)
  obtain ⟨hfit, hreturned, hcores, hwakes, hids⟩ := of_decide_eq_true hc
  exact ⟨c, hrun, hids, maps_reclaimed hrun hfit hreturned hcores hwakes⟩

/-! ## After the ids have come round -/

/-- A new submit gets the same id before the record is taken; the waiter that is removed with the record is that of
the new submit. -/
def takenTooLate : List ClientAct :=
  [.enter 1 (.ok (twoLanes 1 ⟨0, 1⟩ ⟨0, 0⟩)) (.ok [plainTask]) 0 0, .call 0 .take,
    .call 0 (.copyBack (.ok ()) (.ok ())), .call 1 .lookup]

theorem maps_not_reclaimed_on_wrap : ∃ acts, ∃ c : Clients, clients.run acts = some c ∧ c.AllReturned ∧
    CoresReturned c.sys.hist ∧ c.sys.worker.wakes = [] ∧ c.signals = [] ∧ c.sys.state.tasks ≠ ∅ := by
  obtain ⟨acts, c, evs, d, hrun, haborts, hcores, hcores', hreturned, hwakes, hsignals, hlive⟩ :=
    Clients.exists_wrapped_run wokenCall takenTooLate 2
      (show Accepted (twoLanes 1 ⟨0, 1⟩ ⟨0, 0⟩) [plainTask] from ⟨rfl, rfl⟩)
      (p := fun c d => CoresReturned c.sys.hist ∧ CoresReturned d.sys.hist ∧ d.AllReturned ∧ d.sys.worker.wakes = [] ∧
        d.signals = [] ∧ d.sys.state.tasks[(1 : UInt64)]? ≠ none) (by decide +kernel)
  refine ⟨acts, _, hrun, hreturned, (hcores.append haborts.coresReturned).append hcores', hwakes, hsignals, fun hempty => ?_⟩
  replace hempty : d.sys.state.tasks = ∅ := hempty
  rw [hempty] at hlive
  exact hlive Std.ExtTreeMap.getElem?_empty

end Rknpu.Service
