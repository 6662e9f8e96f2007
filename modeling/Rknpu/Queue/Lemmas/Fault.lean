import Rknpu.Queue.Lemmas.Drain

/-!
# Faulted submits

An error of a submit stays, and from then on no task of it is reserved. A submit that was live when its
error was recorded leaves `tasks` with its last task in flight. `readFailed` is the exception: it marks a
record that is already complete, and such a submit may have left lanes running.
-/

namespace Rknpu.Queue

variable {id : RknpuQueueTaskId} {queued : RknpuQueuedSubmit} {evs evs' : List SubmitEvent} {ℓ ℓ' : Life}
  {e : SubmitEvent} {t : RknpuQueueTask}

/-! ## The error stays -/

theorem Life.Step.lastError_ne_none (h : Life.Step ℓ e ℓ') (herr : ℓ.task.lastError ≠ none) :
    ℓ'.task.lastError ≠ none := by
  rcases h.kinds with ⟨slot, rfl⟩ | ⟨slot, err, rfl⟩ | ⟨slot, status, timeNs, rfl⟩ | hq
  · cases h
    rwa [RknpuQueueTask.lastError_reserveSlot]
  · cases h
    rw [RknpuQueueTask.lastError_failDispatch]
    exact nofun
  · cases h with
    | @harvested t =>
        obtain ⟨lat, hlat⟩ := RknpuQueueTask.harvestSlot_eq t slot status timeNs
        rw [hlat]
        exact RknpuQueueTask.lastError_recordCompletion_ne_none herr _ _ _
  · exact mt hq.error herr

theorem Life.Step.reservedSlots_eq_nil (h : Life.Step ℓ e ℓ') (herr : ℓ.task.lastError ≠ none) :
    reservedSlots [e] = [] := by
  cases h with
  | reserved _ _ _ hnext => exact (herr (RknpuQueueTask.lastError_of_nextDispatchableTask hnext)).elim
  | _ => rfl

namespace Life.Steps

theorem lastError_ne_none (h : Life.Steps ℓ evs ℓ') (herr : ℓ.task.lastError ≠ none) : ℓ'.task.lastError ≠ none := by
  induction h with
  | nil => exact herr
  | cons hstep _ ih => exact ih (hstep.lastError_ne_none herr)

theorem reservedSlots_eq_nil (h : Life.Steps ℓ evs ℓ') (herr : ℓ.task.lastError ≠ none) : reservedSlots evs = [] := by
  induction h with
  | nil => rfl
  | @cons _ _ _ e evs hstep _ ih =>
      rw [← List.singleton_append, reservedSlots_append, hstep.reservedSlots_eq_nil herr,
        ih (hstep.lastError_ne_none herr), List.append_nil]

/-- The record that is taken carries the error. -/
theorem lastError_of_taken (h : Life.Steps ℓ evs ℓ') (herr : ℓ.task.lastError ≠ none) (hmem : .taken t ∈ evs) :
    t.lastError ≠ none := by
  induction h with
  | nil => cases hmem
  | cons hstep _ ih =>
      rcases List.mem_cons.mp hmem with rfl | hmem
      · cases hstep
        exact herr
      · exact ih (hstep.lastError_ne_none herr) hmem

end Life.Steps

/-- A submit that outlives its abort has the error of the abort. -/
theorem Life.Reach.lastError_of_aborted (h : Life.Reach id queued evs ℓ) (hmem : .aborted ∈ evs)
    (hlive : ℓ.place = .live) : ℓ.task.lastError ≠ none := by
  induction h with
  | start => cases hmem
  | step _ hstep ih =>
      rcases List.mem_append.mp hmem with hmem | hmem
      · refine hstep.lastError_ne_none (ih hmem ?_)
        by_contra hne
        exact (hstep.left hne).1 hlive
      · cases List.mem_singleton.mp hmem
        cases hstep with
        | abortedLive => exact nofun
        | abortedDone => cases hlive

/-! ## A faulted submit drains -/

/-- Outside `tasks`, a submit with an error has nothing in flight. -/
def Life.FaultDrained (ℓ : Life) : Prop := ℓ.place ≠ .live → ℓ.task.lastError ≠ none → ℓ.inflight = []

/-- Live with an error means that a task is still in flight. -/
theorem Life.Inv.live_iff (h : Life.Inv id queued evs ℓ) (hdrained : ℓ.FaultDrained)
    (herr : ℓ.task.lastError ≠ none) : ℓ.place ≠ .live ↔ ℓ.inflight = [] := by
  constructor
  · exact fun hne => hdrained hne herr
  · intro hnil hlive
    exact (h.hasRunningTasks_iff hlive).mp (h.draining hlive herr) hnil

theorem Life.Step.faultDrained (h : Life.Step ℓ e ℓ') (hinv : Life.Inv id queued evs ℓ)
    (hinv' : Life.Inv id queued evs' ℓ') (hdrained : ℓ.FaultDrained)
    (hread : e = .readFailed → ℓ.task.lastError ≠ none) : ℓ'.FaultDrained := by
  intro hne herr'
  by_cases hlive : ℓ.place = .live
  · exact h.drained_of_fault hinv hinv' hlive hne herr'
  · have herr : ℓ.task.lastError ≠ none := by
      cases h with
      | orphaned => exact herr'
      | readFailed => exact hread rfl
      | woken => exact herr'
      | dropped => exact herr'
      | abortedDone => exact herr'
      | taken => exact herr'
      | _ => exact (hlive rfl).elim
    have hsub := (h.left hlive).2
    rw [hdrained hlive herr] at hsub
    exact List.sublist_nil.mp hsub

/-- The property is kept unless the first error of the submit is that of a failed read. -/
theorem Life.Steps.faultDrained (h : Life.Steps ℓ evs' ℓ') (hfits : queued.Fits) (hreach : Life.Reach id queued evs ℓ)
    (hdrained : ℓ.FaultDrained) (hread : .readFailed ∈ evs' → ℓ.task.lastError ≠ none) : ℓ'.FaultDrained := by
  induction h generalizing evs with
  | nil => exact hdrained
  | @cons ℓ ℓ₁ ℓ₂ e evs' hstep _ ih =>
      have hreach₁ := hreach.step hstep
      refine ih hreach₁ (hstep.faultDrained (hreach.inv hfits) (hreach₁.inv hfits) hdrained ?_) ?_
      · rintro rfl
        exact hread (List.mem_cons_self ..)
      · exact fun hmem => hstep.lastError_ne_none (hread (List.mem_cons_of_mem _ hmem))

end Rknpu.Queue
