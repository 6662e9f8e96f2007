import Rknpu.Lib.BoundedLog
import Rknpu.Service.System
import Rknpu.Service.Lemmas.Queues

/-!
# Events of the locked sections

Projections of a history, and the kinds of events that a harvest and a wake-up record.
-/

namespace Rknpu.Service

open Queue

variable {W : Type}

/-! ## Projections -/

@[simp] theorem eventsOf_append (taskId : RknpuQueueTaskId) (hist hist' : List Event) :
    eventsOf taskId (hist ++ hist') = eventsOf taskId hist ++ eventsOf taskId hist' := List.filterMap_append ..

@[simp] theorem eventsOf_nil (taskId : RknpuQueueTaskId) : eventsOf taskId [] = [] := rfl

theorem eventsOf_submit_self (taskId : RknpuQueueTaskId) (e : SubmitEvent) :
    eventsOf taskId [.submit taskId e] = [e] := by simp [eventsOf]

theorem eventsOf_submit_of_ne {taskId id : RknpuQueueTaskId} (h : id ≠ taskId) (e : SubmitEvent) :
    eventsOf taskId [.submit id e] = [] := by simp [eventsOf, h]

theorem mem_eventsOf {taskId : RknpuQueueTaskId} {e : SubmitEvent} {hist : List Event} :
    e ∈ eventsOf taskId hist ↔ .submit taskId e ∈ hist := by
  simp only [eventsOf, List.mem_filterMap]
  constructor
  · rintro ⟨ev, hmem, hev⟩
    cases ev with
    | submit id e' =>
        simp only [Option.ite_none_right_eq_some, Option.some.injEq] at hev
        obtain ⟨rfl, rfl⟩ := hev
        exact hmem
    | enqueued => cases hev
    | moved => cases hev
  · exact fun hmem => ⟨_, hmem, if_pos rfl⟩

/-- An event of a submit in the whole history. -/
theorem exists_of_eventsOf {taskId : RknpuQueueTaskId} {hist : List Event} {before after : List SubmitEvent}
    {e : SubmitEvent} (h : eventsOf taskId hist = before ++ e :: after) :
    ∃ hist₁ hist₂, hist = hist₁ ++ .submit taskId e :: hist₂ ∧ eventsOf taskId hist₁ = before := by
  obtain ⟨hist₁, ev, hist₂, rfl, hbefore, hev⟩ := List.exists_of_filterMap_eq_append_cons h
  cases ev with
  | submit id e' =>
      simp only [Option.ite_none_right_eq_some, Option.some.injEq] at hev
      obtain ⟨rfl, rfl⟩ := hev
      exact ⟨hist₁, hist₂, rfl, hbefore⟩
  | enqueued => cases hev
  | moved => cases hev

@[simp] theorem enqueuedIds_append (hist hist' : List Event) :
    enqueuedIds (hist ++ hist') = enqueuedIds hist ++ enqueuedIds hist' := List.filterMap_append ..

theorem mem_enqueuedIds {hist : List Event} {taskId : RknpuQueueTaskId} :
    taskId ∈ enqueuedIds hist ↔ ∃ queued timeNs, .enqueued taskId queued timeNs ∈ hist := by
  simp only [enqueuedIds, List.mem_filterMap]
  constructor
  · rintro ⟨e, he, hid⟩
    cases e with
    | enqueued id queued timeNs =>
        cases hid
        exact ⟨queued, timeNs, he⟩
    | submit => cases hid
    | moved => cases hid
  · rintro ⟨queued, timeNs, he⟩
    exact ⟨_, he, rfl⟩

theorem enqueuedIds_eq_nil {evs : List Event} (h : ∀ id queued timeNs, .enqueued id queued timeNs ∉ evs) :
    enqueuedIds evs = [] := by
  refine List.eq_nil_iff_forall_not_mem.mpr fun id hid => ?_
  obtain ⟨queued, timeNs, hmem⟩ := mem_enqueuedIds.mp hid
  exact h id queued timeNs hmem

/-! ## Moves -/

theorem mem_movedEvent {moved : Option RknpuQueueTaskId} {s : NpuSchedulerState W} {e : Event} :
    e ∈ Sys.movedEvent moved s ↔ ∃ taskId, moved = some taskId ∧ e = .moved taskId s.coreBinding.toList := by
  cases moved <;> simp [Sys.movedEvent]

@[simp] theorem eventsOf_movedEvent (taskId : RknpuQueueTaskId) (moved : Option RknpuQueueTaskId)
    (s : NpuSchedulerState W) : eventsOf taskId (Sys.movedEvent moved s) = [] := by
  cases moved <;> rfl

theorem enqueuedIds_movedEvent (moved : Option RknpuQueueTaskId) (s : NpuSchedulerState W) :
    enqueuedIds (Sys.movedEvent moved s) = [] := by
  cases moved <;> rfl

/-! ## Harvests -/

/-- What a harvest records. -/
inductive HarvestEvent : Event → Prop where
  | harvested (taskId : RknpuQueueTaskId) (slot : Slot) (status : UInt32) (timeNs : UInt64) :
      HarvestEvent (.submit taskId (.harvested slot status timeNs))
  | orphaned (taskId : RknpuQueueTaskId) (slot : Slot) (status : UInt32) :
      HarvestEvent (.submit taskId (.orphaned slot status))
  | moved (taskId : RknpuQueueTaskId) (cores : List (Nat × CoreRunBinding)) : HarvestEvent (.moved taskId cores)

theorem HarvestEvent.of_mem_harvestEvent {s : NpuSchedulerState W} {completion : CoreCompletion} {timeNs : UInt64}
    {e : Event} (h : e ∈ Sys.harvestEvent s completion timeNs) : HarvestEvent e := by
  unfold Sys.harvestEvent at h
  split at h
  · cases h
  · dsimp only at h
    split at h
    · rw [List.mem_singleton.mp h]
      exact .harvested ..
    · rw [List.mem_singleton.mp h]
      exact .orphaned ..

theorem HarvestEvent.of_mem {completions : List (CoreCompletion × UInt64)} {s : NpuSchedulerState W} {e : Event}
    (h : e ∈ Sys.harvestEvents completions s) : HarvestEvent e := by
  induction completions generalizing s with
  | nil => cases h
  | cons c completions ih =>
      rw [Sys.harvestEvents, List.mem_append, List.mem_append] at h
      rcases h with (h | h) | h
      · exact .of_mem_harvestEvent h
      · obtain ⟨taskId, _, rfl⟩ := mem_movedEvent.mp h
        exact .moved ..
      · exact ih h

/-! ## Wake-ups -/

/-- What a wake-up records: only of complete submits, and a waiter decides between waking and dropping. -/
inductive WakeEvent (s : NpuSchedulerState W) : Event → Prop where
  | readFailed {taskId : RknpuQueueTaskId} : s.complete[taskId]? ≠ none → WakeEvent s (.submit taskId .readFailed)
  | woken {taskId : RknpuQueueTaskId} :
      s.complete[taskId]? ≠ none → s.waiters[taskId]? ≠ none → WakeEvent s (.submit taskId .woken)
  | dropped {taskId : RknpuQueueTaskId} :
      s.complete[taskId]? ≠ none → s.waiters[taskId]? = none → WakeEvent s (.submit taskId .dropped)

theorem NpuSchedulerState.waiters_wakeTask (s : NpuSchedulerState W) (prepareError : Bool) (taskId : RknpuQueueTaskId) :
    (s.wakeTask prepareError taskId).2.waiters = s.waiters := by
  unfold wakeTask
  cases prepareError with
  | true => dsimp only; split <;> rfl
  | false => dsimp only; split <;> rfl

theorem complete_wakeTask {s : NpuSchedulerState W} {prepareError : Bool} {id taskId : RknpuQueueTaskId}
    (h : s.complete[id]? = none) : (s.wakeTask prepareError taskId).2.complete[id]? = none := by
  unfold NpuSchedulerState.wakeTask
  have hmark : (if prepareError then
      { s with complete := s.complete.modify taskId ({ · with lastError := some .memoryError }) }
      else s).complete[id]? = none := by
    split
    · exact Std.ExtTreeMap.getElem?_modify_eq_none_iff.mpr h
    · exact h
  dsimp only
  split
  · exact hmark
  · exact NpuSchedulerState.getElem?_erase_eq_none hmark

theorem WakeEvent.of_wakeTask {s : NpuSchedulerState W} {prepareError : Bool} {taskId : RknpuQueueTaskId} {e : Event}
    (h : WakeEvent (s.wakeTask prepareError taskId).2 e) : WakeEvent s e := by
  have hwaiters := s.waiters_wakeTask prepareError taskId
  cases h with
  | readFailed hc => exact .readFailed (mt complete_wakeTask hc)
  | woken hc hw => exact .woken (mt complete_wakeTask hc) (by rwa [hwaiters] at hw)
  | dropped hc hw => exact .dropped (mt complete_wakeTask hc) (by rwa [hwaiters] at hw)

theorem WakeEvent.of_mem_wakeEvent {s : NpuSchedulerState W} {prepareError : Bool} {taskId : RknpuQueueTaskId}
    {e : Event} (h : e ∈ Sys.wakeEvent s prepareError taskId) : WakeEvent s e := by
  have hsome : ∀ {β : Type} {m : Std.ExtTreeMap RknpuQueueTaskId β compare},
      m.contains taskId = true ↔ m[taskId]? ≠ none := by
    intro β m
    rw [Std.ExtTreeMap.contains_eq_isSome_getElem?, Option.isSome_iff_ne_none]
  simp only [Sys.wakeEvent, List.mem_append, List.mem_ite_nil_right, List.mem_ite_nil_left, List.mem_singleton,
    Bool.not_eq_true', Bool.not_eq_false, hsome] at h
  rcases h with ⟨⟨_, hc⟩, rfl⟩ | ⟨hc, h⟩
  · exact .readFailed hc
  · split at h
    · rename_i hw
      rw [List.mem_singleton.mp h]
      exact .woken hc hw
    · rename_i hw
      rw [List.mem_singleton.mp h]
      exact .dropped hc (not_not.mp hw)

theorem WakeEvent.of_mem {prepareError : Bool} {taskIds : List RknpuQueueTaskId} {s : NpuSchedulerState W} {e : Event}
    (h : e ∈ Sys.wakeEvents prepareError taskIds s) : WakeEvent s e := by
  induction taskIds generalizing s with
  | nil => cases h
  | cons id taskIds ih =>
      rw [Sys.wakeEvents, List.mem_append] at h
      rcases h with h | h
      · exact .of_mem_wakeEvent h
      · exact .of_wakeTask (ih h)

/-! ## Steps -/

/-- What a step records. -/
inductive Sys.StepEvent (y : Sys W) : Act W → Event → Prop where
  | enqueued {submit : RknpuSubmit} {tasks : List RknpuTask} {t0Ns : UInt64} {waiter : W} {timeNs : UInt64} :
      StepEvent y (.enqueue submit tasks t0Ns waiter timeNs)
        (.enqueued y.nextQueueTaskId (queuedSubmit submit tasks t0Ns) timeNs)
  | reserved (taskId : RknpuQueueTaskId) (slot : Slot) : StepEvent y .decide (.submit taskId (.reserved slot))
  | launched (taskId : RknpuQueueTaskId) (slot : Slot) (timeNs : UInt64) :
      StepEvent y (.launch timeNs) (.submit taskId (.launched slot timeNs))
  | failed (taskId : RknpuQueueTaskId) (slot : Slot) (err : RknpuError) :
      StepEvent y (.fail err) (.submit taskId (.failed slot err))
  | moved (a : Act W) (taskId : RknpuQueueTaskId) (cores : List (Nat × CoreRunBinding)) :
      StepEvent y a (.moved taskId cores)
  | harvest {completions : List (CoreCompletion × UInt64)} {e : Event} :
      HarvestEvent e → StepEvent y (.harvest completions) e
  | wake {deviceError : Bool} {e : Event} : WakeEvent y.state e → StepEvent y (.wake deviceError) e
  | aborted (taskId : RknpuQueueTaskId) : StepEvent y (.abort taskId) (.submit taskId .aborted)
  | taken {taskId : RknpuQueueTaskId} {task : RknpuQueueTask} :
      y.state.complete[taskId]? = some task → StepEvent y (.take taskId) (.submit taskId (.taken task))

theorem Sys.step_events {y y' : Sys W} {a : Act W} (hs : y.step a = some y') :
    ∃ evs, y'.hist = y.hist ++ evs ∧ ∀ e ∈ evs, y.StepEvent a e := by
  cases Sys.step_cases hs with
  | enqueue submit tasks t0Ns waiter timeNs =>
      refine ⟨_, rfl, fun e he => ?_⟩
      rw [List.mem_singleton.mp he]
      exact .enqueued
  | decide _ =>
      unfold Sys.decide
      split
      · exact ⟨[], (List.append_nil _).symm, nofun⟩
      · refine ⟨_, rfl, fun e he => ?_⟩
        rw [List.mem_singleton.mp he]
        exact .reserved ..
  | launch timeNs _ =>
      refine ⟨_, rfl, fun e he => ?_⟩
      rw [List.mem_singleton.mp he]
      exact .launched ..
  | fail err _ =>
      refine ⟨_, List.append_assoc .., fun e he => ?_⟩
      rcases List.mem_append.mp he with he | he
      · rw [List.mem_singleton.mp he]
        exact .failed ..
      · obtain ⟨_, _, rfl⟩ := mem_movedEvent.mp he
        exact .moved ..
  | harvest completions _ => exact ⟨_, rfl, fun e he => .harvest (.of_mem he)⟩
  | wake deviceError _ => exact ⟨_, rfl, fun e he => .wake (.of_mem he)⟩
  | abort taskId =>
      refine ⟨_, List.append_assoc .., fun e he => ?_⟩
      rcases List.mem_append.mp he with he | he
      · rw [(List.mem_ite_nil_right.mp he).2 |> List.mem_singleton.mp]
        exact .aborted _
      · obtain ⟨_, _, rfl⟩ := mem_movedEvent.mp he
        exact .moved ..
  | take taskId =>
      refine ⟨_, rfl, fun e he => ?_⟩
      obtain ⟨task, hc, rfl⟩ := Option.map_eq_some_iff.mp (Option.mem_toList.mp he)
      exact .taken hc

end Rknpu.Service
