import Rknpu.Queue.Lemmas.Supply

/-!
# The count of completed tasks

`completed_task_count` adds up the lane cursors and clamps the sum to `completion_target`, which adds up the lane
sizes. Both sums are taken in 32 bits. `SubmitMeta.CountsExactly` says for which layouts neither sum leaves the width
and the clamp never cuts a completion off, whatever happens to the submit.
-/

namespace Rknpu.Queue

open Finset

/-- The tasks of all lanes, over the natural numbers. -/
def SubmitMeta.laneSum (m : SubmitMeta) : Nat := ∑ l : LaneSlot, (getElem m.laneRanges l l.isLt).taskNumber.toNat

/-- Tasks are not counted by lane, or the lane sizes add up in 32 bits and no more completions than tasks can come in:
the tasks run one at a time because of the mask, or the lanes cannot dispatch more than the task array holds. -/
def SubmitMeta.CountsExactly (m : SubmitMeta) : Prop :=
  m.usesDynamicTasks = true ∨
    m.laneSum < 2 ^ 32 ∧ (m.allowedCores.length ≤ 1 ∨ ∑ l, m.laneCap l ≤ m.taskTotal.toNat)

instance (m : SubmitMeta) : Decidable m.CountsExactly := by
  unfold SubmitMeta.CountsExactly
  infer_instance

/-- No addition of `completion_target` or `completed_task_count` overflows. A dynamic record makes none. -/
def RknpuQueueTask.SumsFit (t : RknpuQueueTask) : Prop :=
  t.submitMeta.usesDynamicTasks = true ∨
    (UInt32.checkedSum (t.submitMeta.laneRanges.toList.map (·.taskNumber))).isSome = true ∧
      (UInt32.checkedSum t.subcoreCursors.toList).isSome = true

instance (t : RknpuQueueTask) : Decidable t.SumsFit := by
  unfold RknpuQueueTask.SumsFit
  infer_instance

/-- Tasks whose completion was harvested, for the live submit or after it had left. -/
def completedSlots (evs : List SubmitEvent) : List Slot :=
  evs.filterMap fun
    | .harvested slot _ _ | .orphaned slot _ => some slot
    | _ => none

theorem completedSlots_append (evs evs' : List SubmitEvent) :
    completedSlots (evs ++ evs') = completedSlots evs ++ completedSlots evs' := List.filterMap_append ..

/-! ## The target -/

namespace SubmitMeta

variable {m : SubmitMeta}

theorem sum_laneCap_le_laneSum (m : SubmitMeta) : ∑ l, m.laneCap l ≤ m.laneSum :=
  sum_le_sum fun _ _ => min_le_left _ _

/-- An accepted layout has a task, because an empty one is made to cover the task array. -/
theorem laneSum_fromSubmit_pos {submit : RknpuSubmit} {taskTotal : UInt32} (h : taskTotal ≠ 0) :
    0 < (fromSubmit submit taskTotal).laneSum := by
  have hpos : 0 < taskTotal.toNat := UInt32.lt_iff_toNat_lt.mp (UInt32.pos_iff_ne_zero.mpr h)
  by_contra hzero
  have hall : ∀ l : LaneSlot, (fromSubmit submit taskTotal).laneRanges[l].taskNumber.toNat = 0 := by
    intro l
    exact sum_eq_zero_iff.mp (Nat.eq_zero_of_not_pos hzero) l (mem_univ l)
  simp only [fromSubmit] at hall
  split at hall
  · have := hall 0
    simp at this
    omega
  · rename_i hempty
    refine hempty ⟨?_, UInt32.pos_iff_ne_zero.mpr h⟩
    rw [List.all_eq_true]
    intro lane hlane
    obtain ⟨i, hi, rfl⟩ := List.getElem_of_mem hlane
    have hl := hall ⟨i, by simpa using hi⟩
    rw [beq_iff_eq, ← UInt32.toNat_inj]
    simpa using hl

/-- Without an overflow the target is what the lanes or the task array hold, whichever is less. -/
theorem toNat_completionTarget (hs : m.usesDynamicTasks = false) (hlt : m.laneSum < 2 ^ 32) (hpos : 0 < m.laneSum) :
    m.completionTarget.toNat = min m.laneSum m.taskTotal.toNat := by
  have htotal : UInt32.toNat (m.laneRanges.toList.map (·.taskNumber)).sum = m.laneSum := by
    rw [UInt32.toNat_sum_vector, ← laneSum, Nat.mod_eq_of_lt hlt]
  have hne : (m.laneRanges.toList.map (·.taskNumber)).sum ≠ 0 := by
    intro hzero
    rw [hzero, UInt32.toNat_zero] at htotal
    omega
  simp only [completionTarget, hs, Bool.false_eq_true, ↓reduceIte, hne, UInt32.toNat_min, htotal]

theorem CountsExactly.drainsFirst (h : m.CountsExactly) (hpos : 0 < m.laneSum) : m.DrainsFirst := by
  cases hmode : m.usesDynamicTasks with
  | true => exact .inl hmode
  | false =>
      obtain ⟨hlt, hone | hcap⟩ := h.resolve_left (by rw [hmode]; exact Bool.false_ne_true)
      · exact .inr (.inl hone)
      · refine .inr (.inr (.inr ?_))
        rw [toNat_completionTarget hmode hlt hpos]
        exact le_min m.sum_laneCap_le_laneSum hcap

end SubmitMeta

/-! ## Completions of a life -/

section

variable {id : RknpuQueueTaskId} {queued : RknpuQueuedSubmit} {evs : List SubmitEvent} {ℓ : Life}

/-- The cursors count the harvested tasks. -/
theorem StaticInv.sum_cursor {m : SubmitMeta} (h : StaticInv m evs ℓ) :
    ∑ l, ℓ.task.cursor l = (harvestedSlots evs).length := by
  have hlen := (perm_flatMap_laneTasks (harvestedSlots evs)).length_eq
  simp only [h.harvested, List.length_flatMap, List.length_range', indices, List.length_map] at hlen
  rw [← hlen, Fin.sum_univ_def]

/-- Nothing else of the submit is in flight when only one core may take its tasks. -/
theorem Life.Inv.idle_of_one_core (h : Life.Inv id queued evs ℓ) (hone : queued.submitMeta.allowedCores.length ≤ 1)
    {slot : Slot} (hcore : slot.core < npuMaxCores) (hfree : slot.core ∉ ℓ.inflight.map Slot.core)
    (hallows : ℓ.task.allowsCore slot.core = true) : ℓ.inflight = [] := by
  have hsub : (slot.core :: ℓ.inflight.map Slot.core) ⊆ queued.submitMeta.allowedCores := by
    rw [← h.submitMeta]
    intro core hmem
    rcases List.mem_cons.mp hmem with rfl | hmem
    · exact mem_allowedCores.mpr ⟨hcore, hallows⟩
    · obtain ⟨slot', hslot', rfl⟩ := List.mem_map.mp hmem
      exact mem_allowedCores.mpr (h.cores slot' hslot')
  have hle := ((List.nodup_cons.mpr ⟨hfree, h.nodup⟩).subperm hsub).length_le
  rw [List.length_cons, List.length_map] at hle
  exact List.eq_nil_of_length_eq_zero (by omega)

/-- On one core, what came in and what is in flight stay within the target: a task is only reserved below it. -/
theorem Life.Reach.harvested_add_inflight_le (hfits : queued.Fits) (hs : queued.submitMeta.usesDynamicTasks = false)
    (hone : queued.submitMeta.allowedCores.length ≤ 1) (h : Life.Reach id queued evs ℓ) :
    (harvestedSlots evs).length + ℓ.inflight.length ≤ queued.submitMeta.completionTarget.toNat := by
  induction h with
  | start => exact Nat.zero_le _
  | @step evs ℓ ℓ' e hreach hstep ih =>
      have hinv := hreach.inv hfits
      rw [harvestedSlots_append, List.length_append]
      cases hstep with
      | @reserved t fl slot hcore hfree hallows hnext =>
          have hidle : fl = [] := hinv.idle_of_one_core hone hcore hfree hallows
          have hmeta : t.submitMeta = queued.submitMeta := hinv.submitMeta
          have hlen : t.submitMeta.taskTotal.toNat ≤ t.tasks.length := by
            rw [hmeta, hinv.length]
            exact hfits
          have hcap := (RknpuQueueTask.nextDispatchableTask_static (by rw [hmeta, hs]) hlen hnext).2.1
          have hlt := (hinv.static hs).unfinished rfl (RknpuQueueTask.lastError_of_nextDispatchableTask hnext)
          rw [(hinv.static hs).sum_cursor] at hlt
          rw [hmeta, SubmitMeta.laneCap] at hcap
          change (harvestedSlots evs).length + 0 + (fl.length + 1) ≤ _
          rw [hidle, List.length_nil]
          omega
      | @failed t fl slot err hmem =>
          change (harvestedSlots evs).length + 0 + (fl.erase slot).length ≤ _
          rw [List.length_erase_of_mem hmem]
          exact le_trans (by dsimp only; omega) ih
      | @harvested t fl slot status timeNs hmem =>
          have hpos := List.length_pos_of_mem hmem
          change (harvestedSlots evs).length + 1 + (fl.erase slot).length ≤ _
          rw [List.length_erase_of_mem hmem]
          exact le_trans (by dsimp only; omega) ih
      | @orphaned t p fl slot status hleft hmem =>
          change (harvestedSlots evs).length + 0 + (fl.erase slot).length ≤ _
          rw [List.length_erase_of_mem hmem]
          exact le_trans (by dsimp only; omega) ih
      | _ => exact ih

/-- A submit that drains first has no completion after it left. -/
theorem Life.Reach.completedSlots_eq (hfits : queued.Fits) (hm : queued.submitMeta.DrainsFirst)
    (h : Life.Reach id queued evs ℓ) : completedSlots evs = harvestedSlots evs := by
  induction h with
  | start => rfl
  | @step evs ℓ ℓ' e hreach hstep ih =>
      rw [completedSlots_append, harvestedSlots_append, ih]
      cases hstep with
      | orphaned hleft hmem =>
          have hidle := hreach.drained hfits hm hleft
          dsimp only at hidle
          rw [hidle] at hmem
          cases hmem
      | _ => rfl

/-! ## The count -/

theorem Life.Inv.sumsFit (h : Life.Inv id queued evs ℓ) (hm : queued.submitMeta.CountsExactly) : ℓ.task.SumsFit := by
  cases hmode : queued.submitMeta.usesDynamicTasks with
  | true => exact .inl (by rw [h.submitMeta, hmode])
  | false =>
      obtain ⟨hlt, _⟩ := hm.resolve_left (by rw [hmode]; exact Bool.false_ne_true)
      have hcursors := UInt32.sum_map_toNat_vector ℓ.task.subcoreCursors fun c => c
      rw [List.map_id'] at hcursors
      refine .inr ⟨UInt32.isSome_checkedSum ?_, UInt32.isSome_checkedSum ?_⟩
      · rw [UInt32.sum_map_toNat_vector, h.submitMeta]
        exact hlt
      · calc (ℓ.task.subcoreCursors.toList.map UInt32.toNat).sum
          _ = ∑ l, ℓ.task.cursor l := hcursors
          _ ≤ ∑ l, queued.submitMeta.laneCap l := sum_le_sum fun l _ => (h.static hmode).cursor_le l
          _ ≤ queued.submitMeta.laneSum := queued.submitMeta.sum_laneCap_le_laneSum
          _ < 2 ^ 32 := hlt

/-- The target cuts no completion of a static submit off. -/
theorem Life.Reach.harvested_le_target (hfits : queued.Fits) (hs : queued.submitMeta.usesDynamicTasks = false)
    (hm : queued.submitMeta.CountsExactly) (hpos : 0 < queued.submitMeta.laneSum) (h : Life.Reach id queued evs ℓ) :
    (harvestedSlots evs).length ≤ queued.submitMeta.completionTarget.toNat := by
  obtain ⟨hlt, hone | hcap⟩ := hm.resolve_left (by rw [hs]; exact Bool.false_ne_true)
  · have hle := h.harvested_add_inflight_le hfits hs hone
    omega
  · have hstat := (h.inv hfits).static hs
    rw [SubmitMeta.toNat_completionTarget hs hlt hpos, ← hstat.sum_cursor]
    have hle : ∑ l, ℓ.task.cursor l ≤ ∑ l, queued.submitMeta.laneCap l := sum_le_sum fun l _ => hstat.cursor_le l
    exact le_min (hle.trans queued.submitMeta.sum_laneCap_le_laneSum) (hle.trans hcap)

theorem Life.Reach.toNat_completedTaskCount (hfits : queued.Fits) (hm : queued.submitMeta.CountsExactly)
    (hpos : 0 < queued.submitMeta.laneSum) (h : Life.Reach id queued evs ℓ) :
    ℓ.task.completedTaskCount.toNat = (completedSlots evs).length := by
  have hinv := h.inv hfits
  rw [h.completedSlots_eq hfits (hm.drainsFirst hpos)]
  cases hmode : queued.submitMeta.usesDynamicTasks with
  | true =>
      have hdyn := hinv.dynamic hmode
      have hnext := hdyn.next_eq
      have hle := hdyn.next_le
      rw [RknpuQueueTask.toNat_completedTaskCount_dynamic (by rw [hinv.submitMeta, hmode]), hinv.submitMeta,
        hdyn.completed]
      rw [hdyn.completed] at hnext
      exact min_eq_left (by omega)
  | false =>
      have hle := h.harvested_le_target hfits hmode hm hpos
      have htarget := queued.submitMeta.completionTarget.toNat_lt
      rw [RknpuQueueTask.toNat_completedTaskCount_static (by rw [hinv.submitMeta, hmode]), hinv.submitMeta,
        (hinv.static hmode).sum_cursor, Nat.mod_eq_of_lt (by omega), min_eq_left hle]

end

end Rknpu.Queue
