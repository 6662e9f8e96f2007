import Rknpu.Queue.Lemmas.Drain

/-!
# Between two reservations

A submit with nothing in flight does nothing on its own: its record stays until a task is reserved or its wait is
aborted. Before the first reservation it is the record that was enqueued.
-/

namespace Rknpu.Queue

variable {id : RknpuQueueTaskId} {queued : RknpuQueuedSubmit} {evs : List SubmitEvent} {ℓ ℓ' : Life}

/-- The submit gives up its place in the queue: it is reserved, aborted or failed. -/
def SubmitEvent.Yields : SubmitEvent → Prop
  | .reserved _ | .aborted | .failed _ _ => True
  | _ => False

instance : DecidablePred SubmitEvent.Yields := fun e =>
  match e with
  | .reserved _ | .aborted | .failed _ _ => .isTrue trivial
  | .launched _ _ | .harvested _ _ _ | .orphaned _ _ | .readFailed | .woken | .dropped | .taken _ =>
      .isFalse not_false

/-- A submit at rest stays as it is until it yields. -/
theorem Life.Steps.at_rest {t : RknpuQueueTask} (h : Life.Steps ⟨t, .live, []⟩ evs ℓ') :
    (evs = [] ∧ ℓ' = ⟨t, .live, []⟩) ∨ ∃ e ∈ evs, e.Yields := by
  cases h with
  | nil => exact .inl ⟨rfl, rfl⟩
  | cons hstep _ =>
      right
      cases hstep with
      | reserved => exact ⟨_, List.mem_cons_self, trivial⟩
      | launched hmem => cases hmem
      | failed hmem => cases hmem
      | harvested hmem => cases hmem
      | orphaned _ hmem => cases hmem
      | abortedLive => exact ⟨_, List.mem_cons_self, trivial⟩

/-- Nothing new is in flight without a reservation. -/
theorem Life.Steps.inflight_sublist (h : Life.Steps ℓ evs ℓ') (hnone : reservedSlots evs = []) :
    ℓ'.inflight.Sublist ℓ.inflight := by
  induction h with
  | nil => exact .refl _
  | cons hstep _ ih =>
      obtain ⟨hone, hrest⟩ := List.append_eq_nil_iff.mp ((reservedSlots_append [_] _).symm.trans hnone)
      refine (ih hrest).trans ?_
      cases hstep with
      | reserved => cases hone
      | failed => exact List.erase_sublist
      | harvested => exact List.erase_sublist
      | orphaned => exact List.erase_sublist
      | _ => exact .refl _

/-- A submit that has left does not come back. -/
theorem Life.Steps.left (h : Life.Steps ℓ evs ℓ') (hne : ℓ.place ≠ .live) : ℓ'.place ≠ .live := by
  induction h with
  | nil => exact hne
  | cons hstep _ ih => exact ih (hstep.left hne).1

/-! ## Before the first reservation -/

/-- A submit is as it was enqueued, or it has a reservation behind it and had a task to dispatch from the start. -/
theorem Life.Reach.fresh (h : Life.Reach id queued evs ℓ) :
    (reservedSlots evs = [] ∧ ℓ.inflight = [] ∧ (ℓ.place = .live → ∃ timeNs, ℓ = Life.start id queued timeNs)) ∨
      (reservedSlots evs ≠ [] ∧ (RknpuQueueTask.new id queued).hasDispatchableTask = true) := by
  induction h with
  | start timeNs => exact .inl ⟨rfl, rfl, fun _ => ⟨timeNs, rfl⟩⟩
  | @step evs ℓ ℓ' e _ hstep ih =>
      rw [reservedSlots_append]
      rcases ih with ⟨hnone, hidle, hstart⟩ | ⟨hsome, hdisp⟩
      · have hnot : ∀ slot, slot ∉ ℓ.inflight := by simp [hidle]
        rw [hnone]
        cases hstep with
        | reserved _ _ _ hnext =>
            obtain ⟨timeNs, he⟩ := hstart rfl
            cases he
            exact .inr ⟨List.cons_ne_nil _ _, Option.isSome_iff_exists.mpr ⟨_, hnext⟩⟩
        | launched hmem => exact (hnot _ hmem).elim
        | failed hmem => exact (hnot _ hmem).elim
        | harvested hmem => exact (hnot _ hmem).elim
        | orphaned _ hmem => exact (hnot _ hmem).elim
        | abortedLive =>
            obtain ⟨timeNs, he⟩ := hstart rfl
            cases he
            -- Nothing of the submit runs, so the abort ends it.
            refine .inl ⟨rfl, hidle, fun hlive => ?_⟩
            rw [RknpuQueueTask.hasRunningTasks_new] at hlive
            cases hlive
        | _ => exact .inl ⟨rfl, hidle, nofun⟩
      · exact .inr ⟨fun hnil => hsome (List.append_eq_nil_iff.mp hnil).1, hdisp⟩

/-! ## One lane -/

/-- A static layout with exactly one non-empty lane. -/
def SubmitMeta.SingleLane (m : SubmitMeta) : Prop :=
  m.usesDynamicTasks = false ∧ ∃ l : LaneSlot, ∀ l' : LaneSlot, (getElem m.laneRanges l' l'.isLt).taskNumber ≠ 0 ↔ l' = l

instance (m : SubmitMeta) : Decidable m.SingleLane := by
  unfold SubmitMeta.SingleLane
  infer_instance

/-- One lane has at most one task in flight. -/
theorem Life.Inv.length_inflight_le_one (h : Life.Inv id queued evs ℓ) (hlive : ℓ.place = .live)
    (hm : queued.submitMeta.SingleLane) : ℓ.inflight.length ≤ 1 := by
  obtain ⟨hs, l, honly⟩ := hm
  have hstat := h.static hs
  have hlane : ∀ slot ∈ ℓ.inflight, slot.laneSlot = l := by
    intro slot hmem
    have hlt := hstat.cursor_lt _ (hstat.slot_mem hlive hmem).1
    refine (honly _).mp fun hzero => ?_
    simp only [SubmitMeta.laneCap, hzero, UInt32.toNat_zero] at hlt
    omega
  have hlen : (laneTasks l ℓ.inflight).length = ℓ.inflight.length := by
    rw [laneTasks, List.length_map, List.filter_eq_self.mpr fun slot hmem => decide_eq_true (hlane slot hmem)]
  rw [← hlen, hstat.bound hlive l]
  split <;> simp

end Rknpu.Queue
