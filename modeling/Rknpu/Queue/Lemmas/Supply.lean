import Rknpu.Queue.Lemmas.Drain
import Rknpu.Queue.Lemmas.Layout

/-!
# When a submit has a next task

A live submit without an error has not reached its target. If nothing of it is in flight, its target can
only be reached by another dispatch. `SubmitMeta.Supplied` says for which layouts there is one: the lanes
hold enough tasks, and the mask admits a core. A dynamic submit that passed `dynamic_layout_is_valid`
always has both.
-/

namespace Rknpu.Queue

open Finset

/-- The mask admits a core, and the lanes can dispatch as many tasks as the target asks for. -/
def SubmitMeta.Supplied (m : SubmitMeta) : Prop :=
  m.allowedCores ≠ [] ∧ m.completionTarget.toNat ≤ ∑ l, m.laneCap l

instance (m : SubmitMeta) : Decidable m.Supplied := by
  unfold SubmitMeta.Supplied
  infer_instance

/-! ## Dynamic submits -/

namespace RknpuQueueTask

variable {t : RknpuQueueTask} {i : UInt32}

theorem originLaneForTask_isSome {l : LaneSlot} (hl : i.toNat ∈ (getElem t.submitMeta.laneRanges l l.isLt).indices)
    (hfit : (getElem t.submitMeta.laneRanges l l.isLt).taskStart.toNat +
      (getElem t.submitMeta.laneRanges l l.isLt).taskNumber.toNat < 2 ^ 32) :
    (t.originLaneForTask i).isSome = true := by
  rw [RknpuSubcoreTask.indices, List.mem_range'_1] at hl
  have hlast : t.submitMeta.laneRanges[l].taskStart.checkedAdd t.submitMeta.laneRanges[l].taskNumber =
      some (UInt32.ofNat (t.submitMeta.laneRanges[l].taskStart.toNat +
        t.submitMeta.laneRanges[l].taskNumber.toNat)) :=
    UInt32.checkedAdd_eq_some_iff.mpr (UInt32.toNat_ofNat_of_lt' hfit)
  have hval := UInt32.checkedAdd_eq_some_iff.mp hlast
  rw [originLaneForTask, List.findSome?_isSome_iff]
  refine ⟨l, List.mem_finRange l, ?_⟩
  dsimp only
  rw [hlast]
  simp only [gt_iff_lt, ge_iff_le, UInt32.lt_iff_toNat_lt, UInt32.le_iff_toNat_le, UInt32.toNat_zero, hval]
  rw [if_pos (by omega)]
  rfl

theorem mem_indices_of_originLane {l : LaneSlot} (h : t.originLaneForTask i = some l) :
    i.toNat ∈ (getElem t.submitMeta.laneRanges l l.isLt).indices := by
  obtain ⟨l', -, hl'⟩ := List.exists_of_findSome?_eq_some h
  dsimp only at hl'
  split at hl'
  · cases hl'
  · rename_i last hlast
    split at hl'
    · rename_i hin
      cases hl'
      rw [UInt32.checkedAdd_eq_some_iff] at hlast
      simp only [gt_iff_lt, ge_iff_le, UInt32.lt_iff_toNat_lt, UInt32.le_iff_toNat_le] at hin
      rw [RknpuSubcoreTask.indices, List.mem_range'_1]
      omega
    · cases hl'

theorem exists_originLane (h : t.submitMeta.Partitions) (hi : i.toNat < t.submitMeta.taskTotal.toNat) :
    (t.originLaneForTask i).isSome = true := by
  obtain ⟨l, hl⟩ := h.mem_indices_iff.mpr hi
  exact originLaneForTask_isSome hl (h.lane_fits ⟨_, hl⟩)

theorem hasDispatchableTask_dynamic (hd : t.submitMeta.usesDynamicTasks = true) (h : t.submitMeta.Partitions)
    (hlen : t.submitMeta.taskTotal.toNat ≤ t.tasks.length) (he : t.lastError = none)
    (hnext : t.dynamicNextTask.toNat < t.submitMeta.taskTotal.toNat) : t.hasDispatchableTask = true := by
  have hlane := exists_originLane h hnext
  simp only [hasDispatchableTask, nextDispatchableTask, he, Option.isSome_none, Bool.false_eq_true,
    ↓reduceIte, hd, ge_iff_le, UInt32.le_iff_toNat_le]
  rw [if_neg (by omega), Option.isSome_map]
  exact hlane

end RknpuQueueTask

/-- A mask of known cores admits one of them. -/
theorem SubmitMeta.allowedCores_ne_nil {m : SubmitMeta} (h : m.coreMask &&& ~~~rknpuValidCoreMask = 0) :
    m.allowedCores ≠ [] := by
  have hle : m.coreMask.toNat ≤ 7 := by
    have hall : rknpuValidCoreMask ||| ~~~rknpuValidCoreMask = -1 := by decide
    have hsplit : m.coreMask &&& (rknpuValidCoreMask ||| ~~~rknpuValidCoreMask) =
        (m.coreMask &&& rknpuValidCoreMask) ||| (m.coreMask &&& ~~~rknpuValidCoreMask) :=
      UInt32.toBitVec_inj.mp (BitVec.and_or_distrib_left ..)
    rw [hall, h, UInt32.and_neg_one, UInt32.or_zero] at hsplit
    rw [hsplit, UInt32.toNat_and]
    exact Nat.and_le_right
  have hmask : m.coreMask = UInt32.ofNat m.coreMask.toNat := UInt32.ofNat_toNat.symm
  unfold allowedCores
  rw [hmask]
  generalize m.coreMask.toNat = n at hle
  interval_cases n <;> decide

/-- The target of a partition is the task total, so all tasks have to be done. -/
theorem SubmitMeta.Partitions.completionTarget_eq {m : SubmitMeta} (h : m.Partitions) :
    m.completionTarget = m.taskTotal := by
  have htotal : (m.laneRanges.toList.map (·.taskNumber)).sum = m.taskTotal := by
    rw [← UInt32.toNat_inj, UInt32.toNat_sum_vector, ← Nat.mod_eq_of_lt m.taskTotal.toNat_lt, ← h.sum_laneCap]
    simp only [h.laneCap_eq]
  unfold SubmitMeta.completionTarget
  dsimp only
  rw [htotal, ← UInt32.toNat_inj]
  split
  · rfl
  · split
    · rfl
    · rw [UInt32.toNat_min, min_self]

theorem SubmitMeta.Partitions.drainsFirst {m : SubmitMeta} (h : m.Partitions) : m.DrainsFirst := by
  refine .inr (.inr (.inr ?_))
  rw [h.sum_laneCap, h.completionTarget_eq]

theorem SubmitMeta.Partitions.supplied {m : SubmitMeta} (h : m.Partitions) (hcores : m.allowedCores ≠ []) :
    m.Supplied := by
  refine ⟨hcores, ?_⟩
  rw [h.sum_laneCap]
  exact m.completionTarget_le

/-! ## Lives -/

/-- A live submit without an error and with nothing in flight has a task to dispatch. -/
theorem Life.Inv.hasDispatchableTask {id : RknpuQueueTaskId} {queued : RknpuQueuedSubmit}
    {evs : List SubmitEvent} {ℓ : Life} (h : Life.Inv id queued evs ℓ) (hfits : queued.Fits)
    (hlive : ℓ.place = .live) (he : ℓ.task.lastError = none) (hidle : ℓ.inflight = [])
    (hpos : queued.submitMeta.taskTotal.toNat ≠ 0) (hm : queued.submitMeta.Supplied)
    (hpart : queued.submitMeta.usesDynamicTasks = true → queued.submitMeta.Partitions) :
    ℓ.task.hasDispatchableTask = true := by
  have hmeta := h.submitMeta
  have hlen : ℓ.task.submitMeta.taskTotal.toNat ≤ ℓ.task.tasks.length := by
    rw [hmeta, h.length]
    exact hfits
  cases hmode : queued.submitMeta.usesDynamicTasks with
  | true =>
      have hdyn := h.dynamic hmode
      have hnofail : failedSlots evs = [] := by
        by_contra hne
        exact h.failed hne he
      have hnext := hdyn.next_eq
      rw [hdyn.running, hidle, hnofail] at hnext
      have hlt := hdyn.unfinished hlive he
      refine RknpuQueueTask.hasDispatchableTask_dynamic (by rw [hmeta, hmode]) (by rw [hmeta]; exact hpart hmode)
        hlen he ?_
      rw [hmeta]
      simp only [List.length_nil] at hnext
      omega
  | false =>
      have hstat := h.static hmode
      have hlt : ∑ l, ℓ.task.cursor l < ∑ l, queued.submitMeta.laneCap l := by
        rcases hstat.unfinished hlive he with hlt | hzero
        · exact lt_of_lt_of_le hlt hm.2
        · exact (hpos hzero).elim
      obtain ⟨l, _, hl⟩ := Finset.exists_lt_of_sum_lt hlt
      refine RknpuQueueTask.hasDispatchableTask_static (by rw [hmeta, hmode]) hlen he
        (hstat.runs_eq_false hlive hidle l) ?_
      rw [hmeta]
      exact hl

end Rknpu.Queue
