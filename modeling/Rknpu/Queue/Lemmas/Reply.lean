import Rknpu.Queue.Lemmas.Drain

/-!
# The reply to a submit

The record that is taken at the end holds the submitted header and descriptors, except for the progress counters and
for the status of the tasks that were reserved.
-/

namespace Rknpu.Queue

/-! ## The record that is taken -/

section

variable {id : RknpuQueueTaskId} {queued : RknpuQueuedSubmit} {evs : List SubmitEvent} {ℓ ℓ' : Life} {e : SubmitEvent}

theorem Life.Step.task_of_gone (h : Life.Step ℓ e ℓ') (hgone : ℓ.place = .gone) : ℓ'.task = ℓ.task := by
  cases h with
  | orphaned => rfl
  | _ => cases hgone

/-- After the take the record does not change any more. -/
theorem Life.Reach.task_of_taken (h : Life.Reach id queued evs ℓ) {t : RknpuQueueTask} (hmem : .taken t ∈ evs) :
    ℓ.task = t := by
  induction h with
  | start => cases hmem
  | step hreach hstep ih =>
      rcases List.mem_append.mp hmem with hmem | hmem
      · exact (hstep.task_of_gone (hreach.gone_of_taken hmem)).trans (ih hmem)
      · cases List.mem_singleton.mp hmem
        cases hstep
        rfl

theorem Life.Reach.mem_reservedSlots (h : Life.Reach id queued evs ℓ) {slot : Slot} (hmem : slot ∈ ℓ.inflight) :
    slot ∈ reservedSlots evs :=
  h.balance.mem_iff.mpr (List.mem_append_right _ hmem)

end

/-! ## Descriptors -/

/-- What becomes of the descriptor `d` of task `i`: it is left alone until the task is reserved, and then its status
is zero or what a completion of the task brought. -/
structure DescReply (evs : List SubmitEvent) (i : Nat) (d d' : RknpuTask) : Prop where
  untouched : i ∉ indices (reservedSlots evs) → d' = d
  written : i ∈ indices (reservedSlots evs) → d' = { d with intStatus := 0 } ∨
    ∃ slot status timeNs, .harvested slot status timeNs ∈ evs ∧ slot.taskIndex.toNat = i ∧
      d' = { d with intStatus := status &&& d.intMask }

namespace DescReply

variable {evs evs' : List SubmitEvent} {i : Nat} {d d' : RknpuTask}

theorem fields (h : DescReply evs i d d') (st : UInt32) :
    ({ d' with intStatus := st } : RknpuTask) = { d with intStatus := st } := by
  by_cases hmem : i ∈ indices (reservedSlots evs)
  · rcases h.written hmem with rfl | ⟨_, _, _, _, _, rfl⟩ <;> rfl
  · rw [h.untouched hmem]

theorem intMask (h : DescReply evs i d d') : d'.intMask = d.intMask := by
  have hmask := congrArg RknpuTask.intMask (h.fields 0)
  exact hmask

theorem mono (h : DescReply evs i d d') (hsub : evs ⊆ evs')
    (hreserved : i ∈ indices (reservedSlots evs') ↔ i ∈ indices (reservedSlots evs)) : DescReply evs' i d d' := by
  refine ⟨fun hno => h.untouched (mt hreserved.mpr hno), fun hmem => ?_⟩
  refine (h.written (hreserved.mp hmem)).imp_right ?_
  exact fun ⟨slot, status, timeNs, he, hrest⟩ => ⟨slot, status, timeNs, hsub he, hrest⟩

end DescReply

/-- The descriptors of the record against those of the submit. -/
def DescsReply (evs : List SubmitEvent) (tasks tasks' : List RknpuTask) : Prop :=
  ∀ (i : Nat) (d : RknpuTask), tasks[i]? = some d → ∃ d', tasks'[i]? = some d' ∧ DescReply evs i d d'

namespace DescsReply

variable {evs : List SubmitEvent} {tasks tasks' : List RknpuTask} {slot : Slot}

/-- An event that reserves nothing and leaves the descriptors alone. -/
theorem same (h : DescsReply evs tasks tasks') {e : SubmitEvent} (he : reservedSlots [e] = []) :
    DescsReply (evs ++ [e]) tasks tasks' := by
  intro i d hd
  obtain ⟨d', hd', hdesc⟩ := h i d hd
  refine ⟨d', hd', hdesc.mono (List.subset_append_left ..) ?_⟩
  rw [reservedSlots_append, he, List.append_nil]

theorem reserve (h : DescsReply evs tasks tasks') :
    DescsReply (evs ++ [.reserved slot]) tasks
      (tasks'.modify slot.taskIndex.toNat fun desc => { desc with intStatus := 0 }) := by
  intro i d hd
  obtain ⟨d', hd', hdesc⟩ := h i d hd
  have hreserved : i ∈ indices (reservedSlots (evs ++ [.reserved slot])) ↔
      i ∈ indices (reservedSlots evs) ∨ i = slot.taskIndex.toNat := by
    rw [reservedSlots_append, indices, List.map_append, List.mem_append]
    exact or_congr_right List.mem_singleton
  by_cases hi : slot.taskIndex.toNat = i
  · refine ⟨_, by rw [hi, List.getElem?_modify_eq, hd']; rfl, fun hno => ?_, fun _ => .inl (hdesc.fields 0)⟩
    exact (hno (hreserved.mpr (.inr hi.symm))).elim
  · refine ⟨d', by rw [List.getElem?_modify_ne _ _ hi]; exact hd', hdesc.mono (List.subset_append_left ..) ?_⟩
    exact hreserved.trans (or_iff_left fun he => hi he.symm)

theorem harvest (h : DescsReply evs tasks tasks') (hmem : slot ∈ reservedSlots evs) (status : UInt32)
    (timeNs : UInt64) :
    DescsReply (evs ++ [.harvested slot status timeNs]) tasks
      (tasks'.modify slot.taskIndex.toNat fun desc => { desc with intStatus := status &&& desc.intMask }) := by
  intro i d hd
  obtain ⟨d', hd', hdesc⟩ := h i d hd
  have hreserved : reservedSlots (evs ++ [.harvested slot status timeNs]) = reservedSlots evs := by
    rw [reservedSlots_append]
    exact List.append_nil _
  by_cases hi : slot.taskIndex.toNat = i
  · refine ⟨_, by rw [hi, List.getElem?_modify_eq, hd']; rfl, fun hno => ?_, fun _ => .inr ?_⟩
    · rw [hreserved] at hno
      exact (hno (hi ▸ List.mem_map_of_mem hmem)).elim
    · refine ⟨slot, status, timeNs, List.mem_append_right _ (List.mem_singleton_self _), hi, ?_⟩
      exact (hdesc.fields _).trans (by rw [hdesc.intMask])
  · refine ⟨d', by rw [List.getElem?_modify_ne _ _ hi]; exact hd', hdesc.mono (List.subset_append_left ..) ?_⟩
    rw [hreserved]

end DescsReply

theorem Life.Reach.descsReply {id : RknpuQueueTaskId} {queued : RknpuQueuedSubmit} {evs : List SubmitEvent} {ℓ : Life}
    (hfits : queued.Fits) (h : Life.Reach id queued evs ℓ) : DescsReply evs queued.tasks ℓ.task.tasks := by
  induction h with
  | start timeNs =>
      exact fun i d hd => ⟨d, hd, fun _ => rfl, nofun⟩
  | @step evs ℓ ℓ' e hreach hstep ih =>
      rcases hstep.kinds with ⟨slot, rfl⟩ | ⟨slot, err, rfl⟩ | ⟨slot, status, timeNs, rfl⟩ | hq
      · cases hstep
        rw [RknpuQueueTask.tasks_reserveSlot]
        exact ih.reserve
      · cases hstep with
        | @failed t =>
            rw [show (t.failDispatch slot.laneSlot err).tasks = t.tasks by
              unfold RknpuQueueTask.failDispatch; split <;> rfl]
            exact ih.same rfl
      · cases hstep with
        | @harvested t fl _ _ _ hmem =>
            have hlt := (hreach.inv hfits).lt_length_of_mem hfits rfl hmem
            obtain ⟨lat, hlat⟩ := RknpuQueueTask.harvestSlot_eq t slot status timeNs
            rw [hlat, RknpuQueueTask.recordCompletion_eq (l := slot.laneSlot) hlt status]
            exact ih.harvest (hreach.mem_reservedSlots hmem) status timeNs
      · obtain ⟨err, lat, htask⟩ := hq.task
        rw [htask]
        exact ih.same hq.ledger.1

/-! ## The header -/

theorem rknpuMaxSubcoreTasks_pos : 0 < rknpuMaxSubcoreTasks := by decide

/-- The lanes of the reply: an empty layout comes back as one lane with all tasks. -/
def RknpuSubmit.replyLanes (submit : RknpuSubmit) : Vector RknpuSubcoreTask rknpuMaxSubcoreTasks :=
  if submit.subcoreTask.toList.all fun lane => lane.taskNumber == 0 then
    submit.subcoreTask.set 0 ⟨0, submit.taskNumber⟩ rknpuMaxSubcoreTasks_pos
  else submit.subcoreTask

theorem SubmitMeta.laneRanges_fromSubmit {submit : RknpuSubmit} (h : submit.taskNumber ≠ 0) :
    (SubmitMeta.fromSubmit submit submit.taskNumber).laneRanges = submit.replyLanes := by
  simp only [SubmitMeta.fromSubmit, RknpuSubmit.replyLanes, gt_iff_lt, UInt32.pos_iff_ne_zero.mpr h, and_true]

/-- Only the two counters and the lanes differ from the submitted header. -/
theorem RknpuQueueTask.buildSubmit_frame {t : RknpuQueueTask} {submit : RknpuSubmit} (h : submit.taskNumber ≠ 0)
    (hmeta : t.submitMeta = SubmitMeta.fromSubmit submit submit.taskNumber)
    (hreply : t.reply = SubmitReplyState.fromSubmit submit) :
    { t.buildSubmit with taskArrayCpuAddress := submit.taskArrayCpuAddress } =
      { submit with
        taskCounter := t.buildSubmit.taskCounter
        hwElapseTime := t.buildSubmit.hwElapseTime
        subcoreTask := submit.replyLanes } := by
  rw [← SubmitMeta.laneRanges_fromSubmit h]
  simp only [buildSubmit, hmeta, hreply]
  rfl

end Rknpu.Queue
