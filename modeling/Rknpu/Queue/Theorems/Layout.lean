import Rknpu.Queue.Lemmas.Supply

/-!
# What `dynamic_layout_is_valid` accepts

The loop keeps a running end point only. It accepts exactly the headers whose lanes partition the tasks, and for those
`origin_lane_for_task`, which looks through the lanes on its own, finds the one lane of each task.
-/

namespace Rknpu.Queue

/-- The layouts a dynamic submit may have, as sets of tasks. -/
structure ValidLayout (submit : RknpuSubmit) : Prop where
  flags : ∀ bit, submit.flags.toNat.testBit bit = true → rknpuSubmitAllowedFlags.toNat.testBit bit = true
  cores : ∀ bit, submit.coreMask.toNat.testBit bit = true → bit < npuMaxCores
  tasks : 0 < submit.taskNumber.toNat
  empty : ∀ lane ∈ submit.subcoreTask, lane.taskNumber = 0 → lane.taskStart = 0
  consecutive : (ownedBlocks submit.subcoreTask.toList).IsChain Block.Abuts
  disjoint : (ownedBlocks submit.subcoreTask.toList).Pairwise fun b b' => Disjoint b.elems b'.elems
  covers : ⋃ b ∈ ownedBlocks submit.subcoreTask.toList, b.elems = Set.Iio submit.taskNumber.toNat

variable {submit : RknpuSubmit}

theorem coreMask_valid_iff {mask : UInt32} :
    mask &&& ~~~rknpuValidCoreMask = 0 ↔ ∀ bit, mask.toNat.testBit bit = true → bit < npuMaxCores := by
  have hmask : rknpuValidCoreMask.toNat = 2 ^ npuMaxCores - 1 := by decide
  rw [UInt32.and_not_eq_zero_iff]
  simp only [hmask, Nat.testBit_two_pow_sub_one, decide_eq_true_eq]

theorem dynamicLayoutIsValid_iff (hd : submit.flags &&& rknpuJobDynamicTasks ≠ 0) :
    SubmitMeta.dynamicLayoutIsValid submit = true ↔ ValidLayout submit := by
  have hunfold : SubmitMeta.dynamicLayoutIsValid submit = true ↔
      submit.flags &&& ~~~rknpuSubmitAllowedFlags = 0 ∧ submit.coreMask &&& ~~~rknpuValidCoreMask = 0 ∧
        submit.taskNumber ≠ 0 ∧ lanesAreConsecutive submit.taskNumber submit.subcoreTask.toList 0 = true := by
    rw [SubmitMeta.dynamicLayoutIsValid, if_neg hd]
    split
    · rename_i hbad
      simp only [Bool.false_eq_true, false_iff]
      tauto
    · rename_i hgood
      simp only [not_or, not_not] at hgood
      exact ⟨fun h => ⟨hgood.1, hgood.2.1, hgood.2.2, h⟩, fun h => h.2.2.2⟩
  rw [hunfold, lanesAreConsecutive_iff, UInt32.and_not_eq_zero_iff, coreMask_valid_iff, UInt32.toNat_zero]
  have hpos : submit.taskNumber ≠ 0 ↔ 0 < submit.taskNumber.toNat := by
    rw [Nat.pos_iff_ne_zero, ← UInt32.toNat_zero, Ne, Ne, UInt32.toNat_inj]
  rw [hpos]
  constructor
  · rintro ⟨hflags, hcores, htasks, hempty, htiles⟩
    obtain ⟨hchain, hdisjoint, hcovers⟩ := (Block.tiles_iff htasks).mp htiles
    exact ⟨hflags, hcores, htasks, fun lane hlane => hempty lane (Vector.mem_toList_iff.mpr hlane), hchain, hdisjoint,
      hcovers⟩
  · rintro ⟨hflags, hcores, htasks, hempty, hchain, hdisjoint, hcovers⟩
    exact ⟨hflags, hcores, htasks, fun lane hlane => hempty lane (Vector.mem_toList_iff.mp hlane),
      (Block.tiles_iff htasks).mpr ⟨hchain, hdisjoint, hcovers⟩⟩

/-- In a record made from an accepted header every task has one lane, which the lookup finds. -/
theorem originLane_of_valid (hd : submit.flags &&& rknpuJobDynamicTasks ≠ 0)
    (h : SubmitMeta.dynamicLayoutIsValid submit = true) {t : RknpuQueueTask} {taskTotal : UInt32}
    (ht : t.submitMeta = SubmitMeta.fromSubmit submit taskTotal) {i : UInt32} (hi : i < submit.taskNumber) :
    ∃ l : LaneSlot, t.originLaneForTask i = some l ∧
      ∀ l' : LaneSlot, i.toNat ∈ (getElem submit.subcoreTask l' l'.isLt).block.elems ↔ l' = l := by
  obtain ⟨-, hpos, hlanes⟩ := dynamicLayoutIsValid_cases hd h
  have hpart := partitions_of_consecutive hlanes rfl hpos
  have hmeta : t.submitMeta.laneRanges = (SubmitMeta.fromSubmit submit submit.taskNumber).laneRanges := by
    rw [ht, laneRanges_of_consecutive hlanes hpos, laneRanges_of_consecutive hlanes hpos]
  have htable := laneRanges_of_consecutive hlanes hpos submit.taskNumber
  obtain ⟨l₀, hl₀⟩ := hpart.mem_indices_iff.mpr (UInt32.lt_iff_toNat_lt.mp hi)
  obtain ⟨l, hl⟩ := Option.isSome_iff_exists.mp (RknpuQueueTask.originLaneForTask_isSome (t := t) (l := l₀)
    (by rw [hmeta]; exact hl₀) (by rw [hmeta]; exact hpart.lane_fits ⟨_, hl₀⟩))
  refine ⟨l, hl, fun l' => ?_⟩
  have hmem := RknpuQueueTask.mem_indices_of_originLane hl
  rw [hmeta] at hmem
  have helems : i.toNat ∈ submit.subcoreTask[l'].block.elems ↔
      i.toNat ∈ (SubmitMeta.fromSubmit submit submit.taskNumber).laneRanges[l'].indices := by
    rw [htable, RknpuSubcoreTask.indices, List.mem_range'_1, Block.mem_elems]
    rfl
  rw [helems]
  constructor
  · exact fun hmem' => hpart.lane_unique hmem' hmem
  · rintro rfl
    exact hmem

/-- `dynamic_layout_is_valid` is exact, and every task of an accepted header has a unique lane. -/
theorem dynamic_layout_exact (hd : submit.flags &&& rknpuJobDynamicTasks ≠ 0) :
    (SubmitMeta.dynamicLayoutIsValid submit = true ↔ ValidLayout submit) ∧
      (SubmitMeta.dynamicLayoutIsValid submit = true → ∀ (t : RknpuQueueTask) (taskTotal : UInt32),
        t.submitMeta = SubmitMeta.fromSubmit submit taskTotal → ∀ i < submit.taskNumber,
          ∃ l : LaneSlot, t.originLaneForTask i = some l ∧
            ∀ l' : LaneSlot, i.toNat ∈ (getElem submit.subcoreTask l' l'.isLt).block.elems ↔ l' = l) :=
  ⟨dynamicLayoutIsValid_iff hd, fun h _ _ ht _ hi => originLane_of_valid hd h ht hi⟩

/-- Three tasks on lanes 0 and 3, with an empty lane between them. -/
def spreadLanes : RknpuSubmit :=
  { RknpuSubmit.default with
    flags := rknpuJobDynamicTasks
    taskNumber := 3
    subcoreTask := #v[⟨0, 2⟩, ⟨0, 0⟩, ⟨0, 0⟩, ⟨2, 1⟩, ⟨0, 0⟩] }

theorem dynamic_layout_exact_spread : ValidLayout spreadLanes ∧
    ∃ l : LaneSlot, (RknpuQueueTask.new 1 (.new spreadLanes [])).originLaneForTask 2 = some l ∧
      ∀ l' : LaneSlot, 2 ∈ (getElem spreadLanes.subcoreTask l' l'.isLt).block.elems ↔ l' = l :=
  have h := dynamic_layout_exact (show spreadLanes.flags &&& rknpuJobDynamicTasks ≠ 0 by decide)
  ⟨h.1.mp (by decide), h.2 (by decide) _ _ rfl 2 (by decide)⟩

end Rknpu.Queue
