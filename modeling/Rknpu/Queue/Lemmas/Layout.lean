import Rknpu.Lib.Tiling
import Rknpu.Queue.Lemmas.Lanes

/-!
# Layouts that partition the tasks

`dynamic_layout_is_valid` checks lane after lane that each starts where the one before ended. Put together,
the lanes list every task exactly once and in order.
-/

namespace Rknpu.Queue

open Finset

/-- The tasks of a lane, in order. -/
def RknpuSubcoreTask.indices (lane : RknpuSubcoreTask) : List Nat :=
  List.range' lane.taskStart.toNat lane.taskNumber.toNat

/-- The lanes in order list the tasks of the submit in order. -/
def SubmitMeta.Partitions (m : SubmitMeta) : Prop :=
  (List.finRange rknpuMaxSubcoreTasks).flatMap (fun l => (getElem m.laneRanges l l.isLt).indices) =
    List.range m.taskTotal.toNat

/-! ## The check -/

def RknpuSubcoreTask.block (lane : RknpuSubcoreTask) : Block := ⟨lane.taskStart.toNat, lane.taskNumber.toNat⟩

/-- The lanes that own a task, in the order of the slots. -/
def ownedBlocks (lanes : List RknpuSubcoreTask) : List Block :=
  (lanes.filter fun lane => lane.taskNumber ≠ 0).map RknpuSubcoreTask.block

theorem ownedBlocks_cons_of_eq {lane : RknpuSubcoreTask} (h : lane.taskNumber = 0) (lanes : List RknpuSubcoreTask) :
    ownedBlocks (lane :: lanes) = ownedBlocks lanes := by
  simp [ownedBlocks, h]

theorem ownedBlocks_cons_of_ne {lane : RknpuSubcoreTask} (h : lane.taskNumber ≠ 0) (lanes : List RknpuSubcoreTask) :
    ownedBlocks (lane :: lanes) = lane.block :: ownedBlocks lanes := by
  simp [ownedBlocks, h]

/-- The loop accepts exactly the lanes that tile the tasks from where it stands. -/
theorem lanesAreConsecutive_iff {taskNumber : UInt32} {lanes : List RknpuSubcoreTask} {nextTask : UInt32} :
    lanesAreConsecutive taskNumber lanes nextTask = true ↔
      (∀ lane ∈ lanes, lane.taskNumber = 0 → lane.taskStart = 0) ∧
        Block.Tiles nextTask.toNat (ownedBlocks lanes) taskNumber.toNat := by
  induction lanes generalizing nextTask with
  | nil => simp [lanesAreConsecutive, ownedBlocks, UInt32.toNat_inj]
  | cons lane lanes ih =>
      rw [List.forall_mem_cons]
      by_cases hzero : lane.taskNumber = 0
      · rw [ownedBlocks_cons_of_eq hzero]
        simp [lanesAreConsecutive, hzero, ih, and_assoc]
      · rw [ownedBlocks_cons_of_ne hzero, Block.tiles_cons, lanesAreConsecutive, if_neg hzero]
        by_cases hstart : lane.taskStart = nextTask
        · subst hstart
          rw [if_neg (not_not.mpr rfl)]
          cases hadd : lane.taskStart.checkedAdd lane.taskNumber with
          | none =>
              -- Then the lane ends beyond every task number.
              rw [UInt32.checkedAdd_eq_none_iff] at hadd
              have hlt := taskNumber.toNat_lt
              simp only [Bool.false_eq_true, false_iff]
              rintro ⟨-, -, htiles⟩
              have hle : lane.taskStart.toNat + lane.taskNumber.toNat ≤ taskNumber.toNat := htiles.le
              omega
          | some last =>
              rw [UInt32.checkedAdd_eq_some_iff] at hadd
              have hblock : lane.taskStart.toNat + lane.block.size = last.toNat := hadd.symm
              dsimp only
              rw [hblock]
              split
              · rename_i hgt
                simp only [Bool.false_eq_true, false_iff]
                rintro ⟨-, -, htiles⟩
                exact absurd htiles.le (Nat.not_le.mpr hgt)
              · rw [ih]
                simp [hzero, RknpuSubcoreTask.block]
        · rw [if_pos hstart]
          simp [RknpuSubcoreTask.block, UInt32.toNat_inj, hstart]

theorem flatMap_indices_ownedBlocks (lanes : List RknpuSubcoreTask) :
    (ownedBlocks lanes).flatMap Block.indices = lanes.flatMap RknpuSubcoreTask.indices := by
  induction lanes with
  | nil => rfl
  | cons lane lanes ih =>
      rw [List.flatMap_cons, ← ih]
      by_cases hzero : lane.taskNumber = 0
      · rw [ownedBlocks_cons_of_eq hzero]
        simp [RknpuSubcoreTask.indices, hzero]
      · rw [ownedBlocks_cons_of_ne hzero, List.flatMap_cons]
        rfl

theorem dynamicLayoutIsValid_cases {submit : RknpuSubmit} (hd : submit.flags &&& rknpuJobDynamicTasks ≠ 0)
    (h : SubmitMeta.dynamicLayoutIsValid submit = true) :
    submit.coreMask &&& ~~~rknpuValidCoreMask = 0 ∧ submit.taskNumber ≠ 0 ∧
      lanesAreConsecutive submit.taskNumber submit.subcoreTask.toList 0 = true := by
  unfold SubmitMeta.dynamicLayoutIsValid at h
  rw [if_neg hd] at h
  split at h
  · cases h
  · rename_i hno
    simp only [not_or, not_not] at hno
    exact ⟨hno.2.1, hno.2.2, h⟩

/-- Some lane of a layout that passes the lane checks owns a task, so the table is taken as it is. -/
theorem laneRanges_of_consecutive {submit : RknpuSubmit}
    (h : lanesAreConsecutive submit.taskNumber submit.subcoreTask.toList 0 = true) (hpos : submit.taskNumber ≠ 0)
    (taskTotal : UInt32) : (SubmitMeta.fromSubmit submit taskTotal).laneRanges = submit.subcoreTask := by
  have hsome : (submit.subcoreTask.toList.all fun lane => lane.taskNumber == 0) = false := by
    by_contra hall
    rw [Bool.not_eq_false, List.all_eq_true] at hall
    have hnil : ownedBlocks submit.subcoreTask.toList = [] := by
      simp only [ownedBlocks, List.map_eq_nil_iff, List.filter_eq_nil_iff]
      intro lane hlane
      simp [beq_iff_eq.mp (hall lane hlane)]
    have htiles := (lanesAreConsecutive_iff.mp h).2
    rw [hnil, Block.tiles_nil, UInt32.toNat_inj] at htiles
    exact hpos htiles.symm
  simp [SubmitMeta.fromSubmit, hsome]

/-- A layout that passes the lane checks partitions the tasks. -/
theorem partitions_of_consecutive {submit : RknpuSubmit} {taskTotal : UInt32}
    (h : lanesAreConsecutive submit.taskNumber submit.subcoreTask.toList 0 = true)
    (htotal : taskTotal = submit.taskNumber) (hpos : submit.taskNumber ≠ 0) :
    (SubmitMeta.fromSubmit submit taskTotal).Partitions := by
  subst htotal
  have hflat := (lanesAreConsecutive_iff.mp h).2.flatMap_indices
  rw [flatMap_indices_ownedBlocks, UInt32.toList_vector, List.flatMap_map] at hflat
  rw [SubmitMeta.Partitions, laneRanges_of_consecutive h hpos, List.range_eq_range']
  exact hflat

namespace SubmitMeta.Partitions

variable {m : SubmitMeta} {l l' : LaneSlot} {i : Nat}

theorem mem_indices_iff (h : m.Partitions) :
    (∃ l : LaneSlot, i ∈ (getElem m.laneRanges l l.isLt).indices) ↔ i < m.taskTotal.toNat := by
  rw [← List.mem_range, ← h, List.mem_flatMap]
  simp

/-- No lane reaches beyond the task array. -/
theorem laneCap_eq (h : m.Partitions) (l : LaneSlot) :
    m.laneCap l = (getElem m.laneRanges l l.isLt).taskNumber.toNat := by
  unfold laneCap laneStart
  by_cases hzero : m.laneRanges[l].taskNumber.toNat = 0
  · omega
  · have hlast : m.laneRanges[l].taskStart.toNat + m.laneRanges[l].taskNumber.toNat - 1 <
        m.taskTotal.toNat := by
      refine h.mem_indices_iff.mp ⟨l, ?_⟩
      rw [RknpuSubcoreTask.indices, List.mem_range'_1]
      omega
    omega

/-- A lane that owns a task ends within the width of the task total. -/
theorem lane_fits (h : m.Partitions) (hl : ∃ i, i ∈ (getElem m.laneRanges l l.isLt).indices) :
    (getElem m.laneRanges l l.isLt).taskStart.toNat + (getElem m.laneRanges l l.isLt).taskNumber.toNat < 2 ^ 32 := by
  obtain ⟨i, hi⟩ := hl
  rw [RknpuSubcoreTask.indices, List.mem_range'_1] at hi
  have hcap := h.laneCap_eq l
  have hT := m.taskTotal.toNat_lt
  simp only [SubmitMeta.laneCap, SubmitMeta.laneStart] at hcap
  omega

theorem sum_laneCap (h : m.Partitions) : ∑ l, m.laneCap l = m.taskTotal.toNat := by
  have hlen := congrArg List.length h
  simp only [List.length_flatMap, RknpuSubcoreTask.indices, List.length_range', List.length_range] at hlen
  rw [← hlen, Fin.sum_univ_def]
  congr 2
  funext l
  exact h.laneCap_eq l

/-- Lanes do not overlap. -/
theorem lane_unique (h : m.Partitions) (hi : i ∈ (getElem m.laneRanges l l.isLt).indices)
    (hi' : i ∈ (getElem m.laneRanges l' l'.isLt).indices) :
    l = l' := by
  have hnodup : ((List.finRange rknpuMaxSubcoreTasks).flatMap fun l => m.laneRanges[l].indices).Nodup := by
    rw [h]
    exact List.nodup_range
  have hpair := (List.nodup_flatMap.mp hnodup).2
  by_contra hne
  have hdisjoint := @List.Pairwise.forall _ _ _ ⟨fun _ _ hd => hd.symm⟩ hpair _ (List.mem_finRange l) _
    (List.mem_finRange l') hne
  exact hdisjoint hi hi'

end SubmitMeta.Partitions

end Rknpu.Queue
