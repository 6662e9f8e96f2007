import Rknpu.Queue.Life

/-!
# Progress of a submit over the natural numbers

The cursors, running bits and counters of a record as natural numbers, and for every operation of
`Queue/Task.lean` the equation it satisfies there. A lane can run `laneCap` tasks: its own number, or
fewer when the task array ends before the lane does.
-/

namespace Rknpu.Queue

open Finset

/-! ## Capacities and targets -/

/-- First task of a lane. -/
def SubmitMeta.laneStart (m : SubmitMeta) (l : LaneSlot) : Nat := (getElem m.laneRanges l l.isLt).taskStart.toNat

/-- How many tasks a lane can dispatch before it leaves its range or the task array. -/
def SubmitMeta.laneCap (m : SubmitMeta) (l : LaneSlot) : Nat :=
  min (getElem m.laneRanges l l.isLt).taskNumber.toNat (m.taskTotal.toNat - m.laneStart l)

theorem SubmitMeta.completionTarget_le (m : SubmitMeta) : m.completionTarget.toNat ≤ m.taskTotal.toNat := by
  unfold SubmitMeta.completionTarget
  split
  · exact le_rfl
  · dsimp only
    split
    · exact le_rfl
    · rw [UInt32.toNat_min]
      exact min_le_right _ _

theorem SubmitMeta.laneRange_eq_some {m : SubmitMeta} {l : LaneSlot} (h : 0 < m.laneCap l) :
    m.laneRange l = some m.laneRanges[l] := by
  have hn : 0 < m.laneRanges[l].taskNumber.toNat := lt_of_lt_of_le h (min_le_left _ _)
  simp only [SubmitMeta.laneRange, gt_iff_lt, UInt32.lt_iff_toNat_lt, UInt32.toNat_zero, hn, ↓reduceIte]

/-- One lane advances by one, and so does the sum. -/
theorem sum_update_succ (f : LaneSlot → Nat) (l : LaneSlot) :
    ∑ l', Function.update f l (f l + 1) l' = ∑ l', f l' + 1 := by
  have hsplit := Finset.add_sum_erase univ f (mem_univ l)
  rw [sum_update_of_mem (mem_univ l), sdiff_singleton_eq_erase]
  omega

namespace RknpuQueueTask

/-! ## The record over the natural numbers -/

def cursor (t : RknpuQueueTask) (l : LaneSlot) : Nat := (getElem t.subcoreCursors l l.isLt).toNat

def runs (t : RknpuQueueTask) (l : LaneSlot) : Bool := getElem t.laneIsrun l l.isLt

variable {t : RknpuQueueTask} {l : LaneSlot} {i : UInt32}

theorem hasRunningTasks_static (hs : t.submitMeta.usesDynamicTasks = false) :
    t.hasRunningTasks = true ↔ ∃ l, t.runs l = true := by
  simp only [hasRunningTasks, hs, Bool.false_eq_true, ↓reduceIte, List.any_eq_true, runs]
  constructor
  · rintro ⟨b, hb, rfl⟩
    obtain ⟨i, hi, hget⟩ := List.getElem_of_mem hb
    exact ⟨⟨i, by simpa using hi⟩, by simpa using hget⟩
  · rintro ⟨l, hl⟩
    exact ⟨true, by rw [← hl]; simp, rfl⟩

theorem hasRunningTasks_dynamic (hd : t.submitMeta.usesDynamicTasks = true) :
    t.hasRunningTasks = true ↔ t.dynamicRunningTasks.toNat ≠ 0 := by
  simp only [hasRunningTasks, hd, ↓reduceIte, bne_iff_ne, ne_eq, ← UInt32.toNat_inj, UInt32.toNat_zero]

theorem toNat_completedTaskCount_static (hs : t.submitMeta.usesDynamicTasks = false) :
    t.completedTaskCount.toNat = min ((∑ l, t.cursor l) % 2 ^ 32) t.submitMeta.completionTarget.toNat := by
  have hsum := UInt32.toNat_sum_vector t.subcoreCursors fun c => c
  rw [List.map_id'] at hsum
  simp only [completedTaskCount, completionTarget, hs, Bool.false_eq_true, ↓reduceIte, UInt32.toNat_min, hsum]
  rfl

theorem toNat_completedTaskCount_dynamic (hd : t.submitMeta.usesDynamicTasks = true) :
    t.completedTaskCount.toNat = min t.dynamicCompletedTasks.toNat t.submitMeta.taskTotal.toNat := by
  simp only [completedTaskCount, hd, ↓reduceIte, UInt32.toNat_min]

theorem isTerminalSuccess_iff : t.isTerminalSuccess = true ↔
    t.lastError = none ∧ t.submitMeta.completionTarget.toNat ≤ t.completedTaskCount.toNat := by
  rw [isTerminalSuccess, Bool.and_eq_true, Option.isNone_iff_eq_none, decide_eq_true_eq, ge_iff_le,
    UInt32.le_iff_toNat_le, completionTarget]

theorem isTerminalSuccess_static (hs : t.submitMeta.usesDynamicTasks = false) :
    t.isTerminalSuccess = true ↔
      t.lastError = none ∧ t.completionTarget.toNat ≤ (∑ l, t.cursor l) % 2 ^ 32 := by
  rw [isTerminalSuccess_iff, toNat_completedTaskCount_static hs, le_min_iff, completionTarget,
    and_iff_left le_rfl]

theorem isTerminalSuccess_dynamic (hd : t.submitMeta.usesDynamicTasks = true) :
    t.isTerminalSuccess = true ↔
      t.lastError = none ∧ t.submitMeta.taskTotal.toNat ≤ t.dynamicCompletedTasks.toNat := by
  rw [isTerminalSuccess_iff, toNat_completedTaskCount_dynamic hd, SubmitMeta.completionTarget, if_pos hd,
    le_min_iff, and_iff_left le_rfl]

theorem isTerminalFault_iff :
    t.isTerminalFault = true ↔ t.lastError ≠ none ∧ t.hasRunningTasks = false := by
  simp [isTerminalFault, Option.isSome_iff_ne_none]

/-! ## Dispatchable tasks -/

theorem nextTaskOfLane_eq_some_iff (hlen : t.submitMeta.taskTotal.toNat ≤ t.tasks.length) :
    t.nextTaskOfLane l = some i ↔
      t.runs l = false ∧ t.cursor l < t.submitMeta.laneCap l ∧
        i.toNat = t.submitMeta.laneStart l + t.cursor l := by
  have hT := t.submitMeta.taskTotal.toNat_lt
  -- Below the task total the sum does not saturate.
  have hsat := UInt32.toNat_saturatingAdd t.submitMeta.laneRanges[l].taskStart t.subcoreCursors[l]
  simp only [nextTaskOfLane, SubmitMeta.laneRange, runs, cursor, SubmitMeta.laneCap, SubmitMeta.laneStart]
  cases t.laneIsrun[l] with
  | true => simp
  | false =>
      simp only [Bool.false_eq_true, ↓reduceIte, gt_iff_lt, UInt32.lt_iff_toNat_lt, UInt32.toNat_zero,
        true_and]
      by_cases hn : 0 < t.submitMeta.laneRanges[l].taskNumber.toNat
      · simp only [hn, ↓reduceIte, ge_iff_le, UInt32.le_iff_toNat_le]
        split
        · simp only [reduceCtorEq, false_iff]
          omega
        · split
          · simp only [reduceCtorEq, false_iff]
            omega
          · simp only [Option.some.injEq, ← UInt32.toNat_inj]
            omega
      · simp only [hn, ↓reduceIte, reduceCtorEq, false_iff]
        omega

theorem nextDispatchableTask_of_error (h : t.lastError ≠ none) : t.nextDispatchableTask = none := by
  simp [nextDispatchableTask, Option.isSome_iff_ne_none, h]

theorem lastError_of_nextDispatchableTask {e : LaneSlot × UInt32} (h : t.nextDispatchableTask = some e) :
    t.lastError = none := by
  by_contra hne
  rw [nextDispatchableTask_of_error hne] at h
  cases h

theorem nextTaskOfLane_of_nextDispatchableTask (hs : t.submitMeta.usesDynamicTasks = false)
    (h : t.nextDispatchableTask = some (l, i)) : t.lastError = none ∧ t.nextTaskOfLane l = some i := by
  have he := lastError_of_nextDispatchableTask h
  simp only [nextDispatchableTask, he, Option.isSome_none, Bool.false_eq_true, ↓reduceIte, hs] at h
  obtain ⟨l', _, hl'⟩ := List.exists_of_findSome?_eq_some h
  obtain ⟨i', hi', he'⟩ := Option.map_eq_some_iff.mp hl'
  cases he'
  exact ⟨he, hi'⟩

theorem nextDispatchableTask_static (hs : t.submitMeta.usesDynamicTasks = false)
    (hlen : t.submitMeta.taskTotal.toNat ≤ t.tasks.length)
    (h : t.nextDispatchableTask = some (l, i)) :
    t.runs l = false ∧ t.cursor l < t.submitMeta.laneCap l ∧
      i.toNat = t.submitMeta.laneStart l + t.cursor l :=
  (nextTaskOfLane_eq_some_iff hlen).mp (nextTaskOfLane_of_nextDispatchableTask hs h).2

/-- A lane that is idle and not used up is found by the scan. -/
theorem hasDispatchableTask_static (hs : t.submitMeta.usesDynamicTasks = false)
    (hlen : t.submitMeta.taskTotal.toNat ≤ t.tasks.length) (he : t.lastError = none)
    (hr : t.runs l = false) (hc : t.cursor l < t.submitMeta.laneCap l) :
    t.hasDispatchableTask = true := by
  have hlane : t.nextTaskOfLane l =
      some (UInt32.ofNat (t.submitMeta.laneStart l + t.cursor l)) := by
    have hT := t.submitMeta.taskTotal.toNat_lt
    refine (nextTaskOfLane_eq_some_iff hlen).mpr ⟨hr, hc, ?_⟩
    refine UInt32.toNat_ofNat_of_lt' ?_
    simp only [SubmitMeta.laneCap, UInt32.size] at *
    omega
  simp only [hasDispatchableTask, nextDispatchableTask, he, Option.isSome_none, Bool.false_eq_true,
    ↓reduceIte, hs, List.findSome?_isSome_iff]
  exact ⟨l, List.mem_finRange l, by simp [hlane]⟩

theorem nextDispatchableTask_dynamic (hd : t.submitMeta.usesDynamicTasks = true)
    (h : t.nextDispatchableTask = some (l, i)) :
    i = t.dynamicNextTask ∧ t.dynamicNextTask.toNat < t.submitMeta.taskTotal.toNat ∧
      t.dynamicNextTask.toNat < t.tasks.length := by
  have he := lastError_of_nextDispatchableTask h
  simp only [nextDispatchableTask, he, Option.isSome_none, Bool.false_eq_true, ↓reduceIte, hd, ge_iff_le,
    UInt32.le_iff_toNat_le] at h
  split at h
  · cases h
  · rename_i hlt
    obtain ⟨l', _, he'⟩ := Option.map_eq_some_iff.mp h
    cases he'
    exact ⟨rfl, by omega, by omega⟩

/-- Both modes check the index against the task array. -/
theorem nextDispatchableTask_lt_length (h : t.nextDispatchableTask = some (l, i)) :
    i.toNat < t.tasks.length := by
  cases hm : t.submitMeta.usesDynamicTasks with
  | true =>
      obtain ⟨rfl, _, hlt⟩ := nextDispatchableTask_dynamic hm h
      exact hlt
  | false =>
      obtain ⟨_, hlane⟩ := nextTaskOfLane_of_nextDispatchableTask hm h
      simp only [nextTaskOfLane] at hlane
      split at hlane
      · cases hlane
      · split at hlane
        · cases hlane
        · split at hlane
          · cases hlane
          · split at hlane
            · cases hlane
            · rename_i hno
              cases hlane
              omega

end RknpuQueueTask

end Rknpu.Queue
