import Rknpu.Queue.Lemmas.Drain
import Rknpu.Service.Lemmas.Terminal

/-!
# Moves into `complete`

A move is recorded with the core bindings of its moment. A submit whose layout drains first is never moved
while a core is bound to it; a static submit with other layouts can be.
-/

namespace Rknpu.Service

open Queue

variable {W : Type}

/-! ## Moves inside a section -/

/-- The section takes the submit out of `tasks` at a moment with these bindings. -/
def Moves (s : NpuSchedulerState W) (taskId : RknpuQueueTaskId) (cores : List (Nat × CoreRunBinding)) : Prop :=
  ∃ evs s₁ evs' s₂, Tracks s evs s₁ ∧ s₁.tasks[taskId]? ≠ none ∧ Tracks s₁ evs' s₂ ∧
    s₂.tasks[taskId]? = none ∧ cores = s₂.coreBinding.toList

variable {s : NpuSchedulerState W} {taskId : RknpuQueueTaskId} {cores : List (Nat × CoreRunBinding)}

theorem moves_harvestEvents {completions : List (CoreCompletion × UInt64)} (hs : s.Consistent)
    (h : .moved taskId cores ∈ Sys.harvestEvents completions s) : Moves s taskId cores := by
  induction completions generalizing s with
  | nil => cases h
  | cons c completions ih =>
      obtain ⟨completion, timeNs⟩ := c
      have hone := tracks_harvestCompletion hs completion timeNs
      simp only [Sys.harvestEvents, List.mem_append] at h
      rcases h with (h | h) | h
      · unfold Sys.harvestEvent at h
        split at h
        · cases h
        · dsimp only at h
          split at h
          all_goals
            cases List.mem_singleton.mp h
      · obtain ⟨_, hmoved, he⟩ := mem_movedEvent.mp h
        cases he
        obtain ⟨hlive, hgone⟩ := NpuSchedulerState.harvestCompletion_moved hmoved
        exact ⟨[], s, _, _, fun id ℓ hagree => ⟨ℓ, .nil, hagree⟩, hlive, hone, hgone, rfl⟩
      · obtain ⟨evs, s₁, evs', s₂, htracks, hrest⟩ := ih (hs.harvestCompletion completion timeNs) h
        exact ⟨_, s₁, evs', s₂, hone.trans htracks, hrest⟩

/-! ## Moves of a run -/

/-- A move belongs to an enqueued submit, and finds it unbound when its layout drains first. -/
theorem Sys.Inv.unbound_of_moves {y : Sys W} (h : y.Inv) (hm : Moves y.state taskId cores) :
    ∃ queued timeNs, .enqueued taskId queued timeNs ∈ y.hist ∧
      (queued.submitMeta.DrainsFirst → ∀ e ∈ cores, e.2.taskId ≠ taskId) := by
  obtain ⟨evs, s₁, evs', s₂, htracks, hlive, htracks', hgone, rfl⟩ := hm
  have hmem : taskId ∈ enqueuedIds y.hist := by
    by_contra hno
    obtain ⟨ℓ, hsteps, hagree⟩ := htracks taskId _
      ((h.unknown taskId hno).2 (RknpuQueueTask.new taskId (RknpuQueuedSubmit.new .default [])))
    rw [hsteps.of_gone.2] at hagree
    exact hlive hagree.tasks
  obtain ⟨queued, timeNs, he⟩ := mem_enqueuedIds.mp hmem
  obtain ⟨hfits, ℓ, hreach, hagree⟩ := h.lives taskId queued timeNs he
  refine ⟨queued, timeNs, he, ?_⟩
  intro hdrains e hbound hid
  obtain ⟨ℓ', hsteps, hagree'⟩ := (htracks.trans htracks') taskId ℓ hagree
  have hnil := (hreach.steps hsteps).drained hfits hdrains (hagree'.not_live hgone)
  have hslot : e.2.slot e.1 ∈ ℓ'.inflight := hagree'.inflight.mem_iff.mp
    (mem_inflightOf.mpr ⟨e.2, Std.ExtTreeMap.mem_toList_iff_getElem?_eq_some.mp hbound, hid, rfl⟩)
  rw [hnil] at hslot
  cases hslot

/-- Every move that a step adds to the history happens inside its section. -/
theorem Sys.Inv.moves_of_step {y y' : Sys W} (h : y.Inv) {a : Act W} (hs : y.step a = some y')
    (hm : .moved taskId cores ∈ y'.hist) : .moved taskId cores ∈ y.hist ∨ Moves y.state taskId cores := by
  cases Sys.step_cases hs with
  | enqueue submit tasks t0Ns waiter timeNs =>
      exact (List.mem_append.mp hm).imp_right fun hm => by cases List.mem_singleton.mp hm
  | decide _ =>
      unfold Sys.decide at hm
      split at hm
      · exact .inl hm
      · exact (List.mem_append.mp hm).imp_right fun hm => by cases List.mem_singleton.mp hm
  | launch timeNs _ => exact (List.mem_append.mp hm).imp_right fun hm => by cases List.mem_singleton.mp hm
  | fail err hw =>
      obtain ⟨hbound, hlive⟩ := h.dispatching _ hw
      rcases List.mem_append.mp hm with hm | hm
      · exact (List.mem_append.mp hm).imp_right fun hm => by cases List.mem_singleton.mp hm
      · obtain ⟨_, hmoved, he⟩ := mem_movedEvent.mp hm
        cases he
        obtain ⟨hlive', hgone⟩ := NpuSchedulerState.failDispatch_moved hmoved
        exact .inr ⟨[], y.state, _, _, fun id ℓ hagree => ⟨ℓ, .nil, hagree⟩, hlive',
          tracks_failDispatch hbound hlive err, hgone, rfl⟩
  | harvest completions _ => exact (List.mem_append.mp hm).imp_right (moves_harvestEvents h.queues)
  | wake deviceError _ => exact (List.mem_append.mp hm).imp_right fun hm => by cases WakeEvent.of_mem hm
  | abort id =>
      rcases List.mem_append.mp hm with hm | hm
      · refine (List.mem_append.mp hm).imp_right fun hm => ?_
        split at hm
        · cases List.mem_singleton.mp hm
        · cases hm
      · obtain ⟨_, hmoved, he⟩ := mem_movedEvent.mp hm
        cases he
        obtain ⟨rfl, hlive, hgone⟩ := NpuSchedulerState.abortWait_moved hmoved
        refine .inr ⟨[], y.state, _, _, fun id ℓ hagree => ⟨ℓ, .nil, hagree⟩, hlive,
          tracks_abortWait y.state taskId, hgone, ?_⟩
        rw [y.state.abortWait_coreBinding]
  | take id =>
      refine (List.mem_append.mp hm).imp_right fun hm => ?_
      cases hc : y.state.complete[id]? with
      | none => simp [hc] at hm
      | some t => simp [hc] at hm

/-- In every run, a submit whose layout drains first is moved into `complete` only when no core is bound
to it. -/
theorem moved_unbound {acts : List (Act W)} {y : Sys W} (hrun : (scheduler W).run acts = some y)
    (hfit : y.IdsFit) {queued : RknpuQueuedSubmit} {timeNs : UInt64}
    (he : .enqueued taskId queued timeNs ∈ y.hist) (hdrains : queued.submitMeta.DrainsFirst)
    (hm : .moved taskId cores ∈ y.hist) : ∀ e ∈ cores, e.2.taskId ≠ taskId := by
  have hall : y.IdsFit → ∀ taskId cores, .moved taskId cores ∈ y.hist →
      ∃ queued timeNs, .enqueued taskId queued timeNs ∈ y.hist ∧
        (queued.submitMeta.DrainsFirst → ∀ e ∈ cores, e.2.taskId ≠ taskId) := by
    refine Machine.run_induction (M := scheduler W) (P := fun _ y => y.IdsFit → ∀ taskId cores,
      .moved taskId cores ∈ y.hist → ∃ queued timeNs, .enqueued taskId queued timeNs ∈ y.hist ∧
        (queued.submitMeta.DrainsFirst → ∀ e ∈ cores, e.2.taskId ≠ taskId)) ?_ ?_ hrun
    · intro _ taskId cores hm
      cases hm
    · intro acts y a y' hrun ih hs hfit' taskId cores hm
      have hfit := hfit'.of_step hs
      have hinv := Sys.inv_of_run hrun hfit
      obtain ⟨queued, timeNs, he, hunbound⟩ : ∃ queued timeNs, .enqueued taskId queued timeNs ∈ y.hist ∧
          (queued.submitMeta.DrainsFirst → ∀ e ∈ cores, e.2.taskId ≠ taskId) := by
        rcases hinv.moves_of_step hs hm with hm | hm
        · exact ih hfit taskId cores hm
        · exact hinv.unbound_of_moves hm
      exact ⟨queued, timeNs, (Sys.step_hist hs).subset he, hunbound⟩
  obtain ⟨queued', timeNs', he', hunbound⟩ := hall hfit taskId cores hm
  obtain ⟨rfl, _⟩ := (Sys.inv_of_run hrun hfit).enqueued_unique he he'
  exact hunbound hdrains

/-! ## Two small submits -/

/-- A header with two lanes and all other fields zero. -/
def twoLanes (taskNumber : UInt32) (lane₀ lane₁ : RknpuSubcoreTask) : RknpuSubmit :=
  { RknpuSubmit.default with
    taskNumber
    taskArrayCpuAddress := 4096
    subcoreTask := #v[lane₀, lane₁, ⟨0, 0⟩, ⟨0, 0⟩, ⟨0, 0⟩] }

/-- A descriptor that expects interrupt bit 0. -/
def plainTask : RknpuTask := { (default : RknpuTask) with intMask := 1 }

/-- A submit with one task on each of two lanes completes while another submit holds core 2. -/
def splitRun : List (Act Unit) :=
  [.enqueue (twoLanes 2 ⟨0, 1⟩ ⟨1, 1⟩) [plainTask, plainTask] 0 () 0,
    .enqueue (twoLanes 1 ⟨0, 1⟩ ⟨0, 0⟩) [plainTask] 0 () 0, .decide, .launch 0, .decide, .launch 0, .decide,
    .launch 0, .harvest [(⟨0, 1, 0⟩, 0), (⟨1, 1, 0⟩, 0)]]

theorem moved_unbound_split : ∃ y : Sys Unit, (scheduler Unit).run splitRun = some y ∧
    ∃ cores, cores ≠ [] ∧ .moved 1 cores ∈ y.hist ∧ ∀ e ∈ cores, e.2.taskId ≠ 1 := by
  obtain ⟨y, hrun, h⟩ : ∃ y : Sys Unit, (scheduler Unit).run splitRun = some y ∧ decide (y.IdsFit ∧
      .enqueued 1 (queuedSubmit (twoLanes 2 ⟨0, 1⟩ ⟨1, 1⟩) [plainTask, plainTask] 0) 0 ∈ y.hist ∧
      .moved 1 [(2, ⟨2, 0, 0⟩)] ∈ y.hist) = true := (Option.any_eq_true _ _).mp (by decide +kernel)
  obtain ⟨hfit, he, hm⟩ := of_decide_eq_true h
  exact ⟨y, hrun, _, List.cons_ne_nil _ _, hm, moved_unbound hrun hfit he (by decide) hm⟩

/-- Both tasks on both lanes: the target of two tasks is reached while lane 0 runs its second. -/
def overlapRun : List (Act Unit) :=
  [.enqueue (twoLanes 2 ⟨0, 2⟩ ⟨0, 2⟩) [plainTask, plainTask] 0 () 0, .decide, .launch 0, .decide, .launch 0,
    .harvest [(⟨0, 1, 0⟩, 0)], .wake false, .decide, .launch 0, .harvest [(⟨1, 1, 0⟩, 0)]]

theorem moved_while_bound : ∃ y : Sys Unit, (scheduler Unit).run overlapRun = some y ∧ y.IdsFit ∧
    ∃ cores, .moved 1 cores ∈ y.hist ∧ ∃ e ∈ cores, e.2.taskId = 1 := by
  obtain ⟨y, hrun, h⟩ : ∃ y : Sys Unit, (scheduler Unit).run overlapRun = some y ∧
      decide (y.IdsFit ∧ .moved 1 [(0, ⟨1, 0, 1⟩)] ∈ y.hist) = true :=
    (Option.any_eq_true _ _).mp (by decide +kernel)
  obtain ⟨hfit, hm⟩ := of_decide_eq_true h
  exact ⟨y, hrun, hfit, _, hm, _, List.mem_singleton_self _, rfl⟩

end Rknpu.Service
