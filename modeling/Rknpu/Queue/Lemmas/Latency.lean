import Rknpu.Queue.Lemmas.Reply

/-!
# The stamps of a submit

`t0` and `t1` stay as they were at the enqueue. `t2` is the time of the first dispatch that the driver accepted, and
`t3` is the time of the completion that moved the submit into `complete`.
-/

namespace Rknpu.Queue

/-! ## Operations -/

namespace RknpuQueueTask

theorem latency_reserveSlot (t : RknpuQueueTask) (slot : Slot) : (t.reserveSlot slot).latency = t.latency := by
  simp only [reserveSlot, reserveDispatch]
  split
  · rfl
  · split <;> rfl

theorem latency_failDispatch (t : RknpuQueueTask) (l : LaneSlot) (err : RknpuError) :
    (t.failDispatch l err).latency = t.latency := by
  simp only [failDispatch]
  split <;> rfl

theorem latency_completeDispatch (t : RknpuQueueTask) (l : LaneSlot) : (t.completeDispatch l).latency = t.latency := by
  simp only [completeDispatch]
  split
  · rfl
  · split <;> rfl

theorem latency_recordCompletion (t : RknpuQueueTask) (l : LaneSlot) (i status : UInt32) :
    (t.recordCompletion l i status).latency = t.latency := by
  unfold recordCompletion
  split
  · dsimp only
    split <;> exact latency_completeDispatch _ l
  · exact latency_failDispatch t l _

end RknpuQueueTask

/-! ## One event -/

/-- The time of an accepted dispatch. -/
def SubmitEvent.launchTime : SubmitEvent → Option UInt64
  | .launched _ timeNs => some timeNs
  | _ => none

section

variable {id : RknpuQueueTaskId} {queued : RknpuQueuedSubmit} {evs : List SubmitEvent} {ℓ ℓ' : Life} {e : SubmitEvent}

/-- The stamps of the ioctl and of the enqueue stay. -/
theorem Life.Step.t0_t1 (h : Life.Step ℓ e ℓ') :
    ℓ'.task.latency.t0Ns = ℓ.task.latency.t0Ns ∧ ℓ'.task.latency.t1Ns = ℓ.task.latency.t1Ns := by
  cases h with
  | reserved => simp [RknpuQueueTask.latency_reserveSlot]
  | launched =>
      simp only [RknpuQueueTask.markFirstDispatch]
      split <;> simp
  | failed => simp [RknpuQueueTask.latency_failDispatch]
  | harvested =>
      simp only [RknpuQueueTask.harvestSlot]
      split <;> simp [RknpuQueueTask.markTerminal, RknpuQueueTask.latency_recordCompletion]
  | _ => exact ⟨rfl, rfl⟩

/-- Only an accepted dispatch sets `t2`. -/
theorem Life.Step.t2 (h : Life.Step ℓ e ℓ') (he : e.launchTime = none) :
    ℓ'.task.latency.t2Ns = ℓ.task.latency.t2Ns := by
  cases h with
  | reserved => rw [RknpuQueueTask.latency_reserveSlot]
  | launched => cases he
  | failed => rw [RknpuQueueTask.latency_failDispatch]
  | harvested =>
      simp only [RknpuQueueTask.harvestSlot]
      split <;> simp [RknpuQueueTask.markTerminal, RknpuQueueTask.latency_recordCompletion]
  | _ => rfl

theorem Life.Steps.t0_t1 (h : Life.Steps ℓ evs ℓ') :
    ℓ'.task.latency.t0Ns = ℓ.task.latency.t0Ns ∧ ℓ'.task.latency.t1Ns = ℓ.task.latency.t1Ns := by
  induction h with
  | nil => exact ⟨rfl, rfl⟩
  | cons hstep _ ih => exact ⟨ih.1.trans hstep.t0_t1.1, ih.2.trans hstep.t0_t1.2⟩

/-! ## The first dispatch -/

/-- The time of the first accepted dispatch. -/
def firstLaunch (evs : List SubmitEvent) : Option UInt64 := evs.findSome? SubmitEvent.launchTime

theorem firstLaunch_append (evs evs' : List SubmitEvent) :
    firstLaunch (evs ++ evs') = (firstLaunch evs).or (firstLaunch evs') := List.findSome?_append

theorem firstLaunch_mem {timeNs : UInt64} (h : firstLaunch evs = some timeNs) : ∃ slot, .launched slot timeNs ∈ evs := by
  obtain ⟨e, hmem, he⟩ := List.exists_of_findSome?_eq_some h
  cases e with
  | launched slot t =>
      cases he
      exact ⟨slot, hmem⟩
  | _ => cases he

theorem isSome_firstLaunch {slot : Slot} {timeNs : UInt64} (h : .launched slot timeNs ∈ evs) :
    (firstLaunch evs).isSome = true := List.findSome?_isSome_iff.mpr ⟨_, h, rfl⟩

/-- `t2` is zero until the driver accepts a dispatch. The code tells a stamp that is not set by its value, so the
clock must not read zero. -/
theorem Life.Reach.t2 (h : Life.Reach id queued evs ℓ) (hqueued : queued.latency.t2Ns = 0)
    (hpos : ∀ slot timeNs, .launched slot timeNs ∈ evs → timeNs ≠ 0) :
    ℓ.task.latency.t2Ns = (firstLaunch evs).getD 0 := by
  induction h with
  | start => exact hqueued
  | @step evs ℓ ℓ' e hreach hstep ih =>
      have hbefore := ih fun slot timeNs hmem => hpos slot timeNs (List.mem_append_left _ hmem)
      rw [firstLaunch_append]
      cases he : e.launchTime with
      | none =>
          rw [hstep.t2 he, hbefore]
          simp [firstLaunch, he]
      | some timeNs =>
          cases hstep with
          | launched =>
              simp only [RknpuQueueTask.markFirstDispatch]
              cases hfirst : firstLaunch evs with
              | none =>
                  rw [hfirst, Option.getD_none] at hbefore
                  rw [if_pos hbefore]
                  rfl
              | some t =>
                  obtain ⟨slot, hmem⟩ := firstLaunch_mem hfirst
                  rw [hfirst, Option.getD_some] at hbefore
                  rw [if_neg (by rw [hbefore]; exact hpos slot t (List.mem_append_left _ hmem)), hbefore]
                  rfl
          | _ => cases he

/-! ## The completion that ends the submit -/

/-- The submit became complete with a completion at this time. -/
def EndsAt (id : RknpuQueueTaskId) (queued : RknpuQueuedSubmit) (evs : List SubmitEvent) (timeNs : UInt64) : Prop :=
  ∃ before slot status after ℓ ℓ', evs = before ++ .harvested slot status timeNs :: after ∧
    Life.Reach id queued before ℓ ∧ ℓ.place = .live ∧ Life.Step ℓ (.harvested slot status timeNs) ℓ' ∧
    ℓ'.place = .complete

theorem EndsAt.append {timeNs : UInt64} (h : EndsAt id queued evs timeNs) (evs' : List SubmitEvent) :
    EndsAt id queued (evs ++ evs') timeNs := by
  obtain ⟨before, slot, status, after, ℓ, ℓ', rfl, hrest⟩ := h
  exact ⟨before, slot, status, after ++ evs', ℓ, ℓ', by simp, hrest⟩

/-- A submit that has left `tasks` without an error has ended with a completion, at the time `t3`. -/
theorem Life.Reach.endsAt (h : Life.Reach id queued evs ℓ) (hplace : ℓ.place ≠ .live) (herr : ℓ.task.lastError = none) :
    EndsAt id queued evs ℓ.task.latency.t3Ns := by
  induction h with
  | start => exact (hplace rfl).elim
  | @step evs ℓ ℓ' e hreach hstep ih =>
      cases hstep with
      | reserved => exact (hplace rfl).elim
      | launched => exact (hplace rfl).elim
      | failed =>
          rw [RknpuQueueTask.lastError_failDispatch] at herr
          cases herr
      | @harvested t fl slot status timeNs hmem =>
          have hterm : (t.recordCompletion slot.laneSlot slot.taskIndex status).isTerminal = true := by
            by_contra hno
            exact hplace (if_neg hno)
          have htime : (t.harvestSlot slot status timeNs).latency.t3Ns = timeNs := by
            simp [RknpuQueueTask.harvestSlot, hterm, RknpuQueueTask.markTerminal]
          rw [htime]
          exact ⟨evs, slot, status, [], _, _, rfl, hreach, rfl, .harvested hmem, if_pos hterm⟩
      | orphaned hp => exact (ih hp herr).append _
      | readFailed => cases herr
      | woken => exact (ih nofun herr).append _
      | dropped => exact (ih nofun herr).append _
      | abortedLive => cases herr
      | abortedDone => exact (ih nofun herr).append _
      | taken => exact (ih nofun herr).append _

end

end Rknpu.Queue
