import Rknpu.Queue.Lemmas.StaticProgress
import Rknpu.Queue.Lemmas.DynamicProgress

/-!
# The invariant of a submit's life

`Life.Inv` joins the frame of the record, the cores it occupies, the agreement of its mode and the rule
that a faulted submit stays live only while tasks drain. It holds after every history
(`Life.Reach.inv`).
-/

namespace Rknpu.Queue

/-- The task total never exceeds the task array. `RknpuQueuedSubmit.new` sets it up so. -/
def RknpuQueuedSubmit.Fits (queued : RknpuQueuedSubmit) : Prop :=
  queued.submitMeta.taskTotal.toNat ≤ queued.tasks.length

theorem RknpuQueuedSubmit.fits_new (submit : RknpuSubmit) (tasks : List RknpuTask) :
    (RknpuQueuedSubmit.new submit tasks).Fits := by
  simp only [Fits, new, SubmitMeta.fromSubmit, UInt32.toNat_ofNat']
  exact Nat.mod_le _ _

structure Life.Inv (id : RknpuQueueTaskId) (queued : RknpuQueuedSubmit) (evs : List SubmitEvent)
    (ℓ : Life) : Prop where
  frame : ℓ.task.frame = (id, queued.submitMeta, queued.reply, queued.tasks.length)
  nodup : (ℓ.inflight.map Slot.core).Nodup
  cores : ∀ slot ∈ ℓ.inflight, slot.core < npuMaxCores ∧ ℓ.task.allowsCore slot.core = true
  static : queued.submitMeta.usesDynamicTasks = false → StaticInv queued.submitMeta evs ℓ
  dynamic : queued.submitMeta.usesDynamicTasks = true → DynamicInv queued.submitMeta evs ℓ
  failed : failedSlots evs ≠ [] → ℓ.task.lastError ≠ none
  draining : ℓ.place = .live → ℓ.task.lastError ≠ none → ℓ.task.hasRunningTasks = true

namespace Life.Inv

variable {id : RknpuQueueTaskId} {queued : RknpuQueuedSubmit} {evs : List SubmitEvent} {ℓ ℓ' : Life}
  {e : SubmitEvent}

theorem submitMeta (h : Life.Inv id queued evs ℓ) : ℓ.task.submitMeta = queued.submitMeta :=
  congrArg (fun f => f.2.1) h.frame

theorem length (h : Life.Inv id queued evs ℓ) : ℓ.task.tasks.length = queued.tasks.length :=
  congrArg (fun f => f.2.2.2) h.frame

/-- The running bits or counter of a live submit say whether a core works for it. -/
theorem hasRunningTasks_iff (h : Life.Inv id queued evs ℓ) (hlive : ℓ.place = .live) :
    ℓ.task.hasRunningTasks = true ↔ ℓ.inflight ≠ [] := by
  cases hm : queued.submitMeta.usesDynamicTasks with
  | true =>
      rw [RknpuQueueTask.hasRunningTasks_dynamic (by rw [h.submitMeta]; exact hm), (h.dynamic hm).running,
        ne_eq, List.length_eq_zero_iff]
  | false =>
      have hbound := (h.static hm).bound hlive
      rw [RknpuQueueTask.hasRunningTasks_static (by rw [h.submitMeta]; exact hm)]
      constructor
      · rintro ⟨l, hr⟩ hnil
        have hl := hbound l
        simp [hnil, hr] at hl
      · intro hne
        by_contra hno
        refine hne (eq_nil_of_laneTasks fun l => ?_)
        have hr : ℓ.task.runs l = false := by
          rw [← Bool.not_eq_true]
          exact fun hr => hno ⟨l, hr⟩
        rw [hbound l, hr]
        rfl

/-- Tasks in flight lie in the task array. -/
theorem lt_length_of_mem (h : Life.Inv id queued evs ℓ) (hfits : queued.Fits) (hlive : ℓ.place = .live)
    {slot : Slot} (hmem : slot ∈ ℓ.inflight) : slot.taskIndex.toNat < ℓ.task.tasks.length := by
  rw [h.length]
  refine lt_of_lt_of_le ?_ hfits
  cases hm : queued.submitMeta.usesDynamicTasks with
  | true => exact ((h.dynamic hm).slot_mem hmem).1
  | false =>
      obtain ⟨hrun, hidx, _⟩ := (h.static hm).slot_mem hlive hmem
      have hlt := (h.static hm).cursor_lt _ hrun
      simp only [SubmitMeta.laneCap] at hlt
      omega

/-- The count of a live submit at rest with a task to dispatch shows whether a task was reserved before. -/
theorem completedTaskCount_ne_zero_iff (h : Life.Inv id queued evs ℓ) (hfits : queued.Fits) (hlive : ℓ.place = .live)
    (hidle : ℓ.inflight = []) (hdisp : ℓ.task.hasDispatchableTask = true) :
    ℓ.task.completedTaskCount ≠ 0 ↔ reservedSlots evs ≠ [] := by
  obtain ⟨⟨l, i⟩, hnext⟩ := Option.isSome_iff_exists.mp hdisp
  have he := RknpuQueueTask.lastError_of_nextDispatchableTask hnext
  have hfail : failedSlots evs = [] := by
    by_contra hfail
    exact h.failed hfail he
  have hmeta := h.submitMeta
  refine not_congr ?_
  rw [← UInt32.toNat_inj]
  cases hm : queued.submitMeta.usesDynamicTasks with
  | true =>
      have hdyn := h.dynamic hm
      have hd : ℓ.task.submitMeta.usesDynamicTasks = true := by rw [hmeta, hm]
      have hlt := (RknpuQueueTask.nextDispatchableTask_dynamic hd hnext).2.1
      have heq := hdyn.next_eq
      rw [hdyn.running, hidle, hfail] at heq
      simp only [List.length_nil, Nat.add_zero] at heq
      have hlen := congrArg List.length hdyn.reserved
      rw [List.length_map, List.length_range] at hlen
      rw [RknpuQueueTask.toNat_completedTaskCount_dynamic hd, UInt32.toNat_zero, ← List.length_eq_zero_iff, hlen]
      omega
  | false =>
      have hstat := h.static hm
      have hs : ℓ.task.submitMeta.usesDynamicTasks = false := by rw [hmeta, hm]
      have hlen : ℓ.task.submitMeta.taskTotal.toNat ≤ ℓ.task.tasks.length := by
        rw [hmeta, h.length]
        exact hfits
      have hcap := (RknpuQueueTask.nextDispatchableTask_static hs hlen hnext).2.1
      have hruns := hstat.runs_eq_false hlive hidle
      have hlt : ∑ l, ℓ.task.cursor l < queued.submitMeta.completionTarget.toNat := by
        rcases hstat.unfinished hlive he with hlt | hzero
        · exact hlt
        · rw [hmeta] at hcap
          simp only [SubmitMeta.laneCap] at hcap
          omega
      rw [RknpuQueueTask.toNat_completedTaskCount_static hs, hmeta, UInt32.toNat_zero,
        Nat.mod_eq_of_lt (hlt.trans queued.submitMeta.completionTarget.toNat_lt), min_eq_left hlt.le,
        Finset.sum_eq_zero_iff]
      constructor
      · intro hzero
        refine eq_nil_of_laneTasks fun l => ?_
        rw [hstat.reserved l, hruns l, hfail, hzero l (Finset.mem_univ l)]
        rfl
      · intro hnil l _
        have hres := congrArg List.length (hstat.reserved l)
        rw [hnil, hruns l, hfail, List.length_range'] at hres
        simpa using hres.symm

/-- No task is reserved twice. -/
theorem nodup_reserved (h : Life.Inv id queued evs ℓ) : ((reservedSlots evs).map Slot.task).Nodup := by
  refine nodup_task_of_laneTasks fun l => ?_
  cases hm : queued.submitMeta.usesDynamicTasks with
  | false =>
      rw [(h.static hm).reserved l]
      exact List.nodup_range'
  | true =>
      have hall : ((reservedSlots evs).map (·.taskIndex.toNat)).Nodup := by
        rw [(h.dynamic hm).reserved]
        exact List.nodup_range
      exact hall.sublist (List.filter_sublist.map _)

/-- An abort does not end a submit that has a task in flight. -/
theorem live_of_aborted (h : Life.Inv id queued evs ℓ) (hlive : ℓ.place = .live) (hfl : ℓ.inflight ≠ [])
    (hstep : Life.Step ℓ .aborted ℓ') : ℓ'.place = .live := by
  have hrun := (h.hasRunningTasks_iff hlive).mpr hfl
  cases hstep with
  | abortedLive =>
      simp only at hrun
      simp [hrun]
  | abortedDone => cases hlive

/-- The running counter has room for one more task, so that a reservation shows. -/
theorem hasRunningTasks_reserveSlot (h : Life.Inv id queued evs ℓ) {slot : Slot}
    (hnext : ℓ.task.nextDispatchableTask = some (slot.laneSlot, slot.taskIndex)) :
    (ℓ.task.reserveSlot slot).hasRunningTasks = true := by
  have hmeta : (ℓ.task.reserveSlot slot).submitMeta = queued.submitMeta :=
    (congrArg (fun f => f.2.1) (RknpuQueueTask.frame_reserveSlot ℓ.task slot)).trans h.submitMeta
  cases hm : queued.submitMeta.usesDynamicTasks with
  | false =>
      have hs : ℓ.task.submitMeta.usesDynamicTasks = false := by rw [h.submitMeta, hm]
      rw [RknpuQueueTask.hasRunningTasks_static (by rw [hmeta, hm])]
      refine ⟨slot.laneSlot, ?_⟩
      rw [RknpuQueueTask.reserveSlot_static hs hnext]
      exact (congrFun (RknpuQueueTask.runs_set ℓ.task slot.laneSlot true) slot.laneSlot).trans (by simp)
  | true =>
      have hd : ℓ.task.submitMeta.usesDynamicTasks = true := by rw [h.submitMeta, hm]
      have hlt := (RknpuQueueTask.nextDispatchableTask_dynamic hd hnext).2.1
      have heq := (h.dynamic hm).next_eq
      have hT := ℓ.task.submitMeta.taskTotal.toNat_lt
      rw [RknpuQueueTask.hasRunningTasks_dynamic (by rw [hmeta, hm]),
        RknpuQueueTask.reserveSlot_dynamic hd hnext]
      simp only
      rw [UInt32.toNat_add_of_lt (by rw [UInt32.toNat_one]; omega)]
      exact Nat.succ_ne_zero _

theorem start (id : RknpuQueueTaskId) (queued : RknpuQueuedSubmit) (timeNs : UInt64) :
    Life.Inv id queued [] (Life.start id queued timeNs) where
  frame := rfl
  nodup := List.nodup_nil
  cores := nofun
  static := StaticInv.start id queued timeNs
  dynamic := fun _ => DynamicInv.start id queued timeNs
  failed := fun hne => (hne rfl).elim
  draining := fun _ hne => (hne rfl).elim

theorem allowsCore_of_frame {t t' : RknpuQueueTask} (h : t'.frame = t.frame) (core : Nat) :
    t'.allowsCore core = t.allowsCore core := by
  have hm : t'.submitMeta = t.submitMeta := congrArg (fun f => f.2.1) h
  simp only [RknpuQueueTask.allowsCore, hm]

theorem draining_of_settled {t : RknpuQueueTask} (hlive : settledPlace t = .live) (he : t.lastError ≠ none) :
    t.hasRunningTasks = true := by
  have hnot := (settledPlace_eq_live.mp hlive).2
  rw [← Bool.not_eq_true, RknpuQueueTask.isTerminalFault_iff, not_and, Bool.not_eq_false] at hnot
  exact hnot he

/-- An event of the submit keeps the invariant. -/
theorem step (hfits : queued.Fits) (h : Life.Inv id queued evs ℓ) (hstep : Life.Step ℓ e ℓ') :
    Life.Inv id queued (evs ++ [e]) ℓ' := by
  have hm := h.submitMeta
  have hlen : queued.submitMeta.taskTotal.toNat ≤ ℓ.task.tasks.length := by
    rw [h.length]
    exact hfits
  rcases hstep.kinds with ⟨slot, rfl⟩ | ⟨slot, err, rfl⟩ | ⟨slot, status, timeNs, rfl⟩ | hq
  · cases hstep with
    | @reserved t fl _ hcore hfresh hallow hnext =>
        have hframe := RknpuQueueTask.frame_reserveSlot t slot
        refine ⟨hframe.trans h.frame, List.nodup_cons.mpr ⟨hfresh, h.nodup⟩, ?_, ?_, ?_, ?_, ?_⟩
        · intro slot' hmem
          rw [allowsCore_of_frame hframe]
          rcases List.mem_cons.mp hmem with rfl | hmem
          · exact ⟨hcore, hallow⟩
          · exact h.cores slot' hmem
        · intro hs
          exact (h.static hs).reserve hm hs hlen h.failed hnext
        · intro hd
          exact (h.dynamic hd).reserve hm hd hnext
        · intro hne
          rw [RknpuQueueTask.lastError_reserveSlot]
          exact h.failed (by simpa [failedSlots] using hne)
        · intro _ he
          rw [RknpuQueueTask.lastError_reserveSlot] at he
          exact (he (RknpuQueueTask.lastError_of_nextDispatchableTask hnext)).elim
  · cases hstep with
    | @failed t fl _ _ hmem =>
        have hframe := RknpuQueueTask.frame_failDispatch t slot.laneSlot err
        refine ⟨hframe.trans h.frame, (List.erase_sublist.map _).nodup h.nodup, ?_, ?_, ?_, ?_, ?_⟩
        · intro slot' hmem'
          rw [allowsCore_of_frame hframe]
          exact h.cores slot' (List.mem_of_mem_erase hmem')
        · intro hs
          exact (h.static hs).fail hm hs hmem err
        · intro hd
          exact (h.dynamic hd).fail hm hd hmem err
        · intro _
          rw [RknpuQueueTask.lastError_failDispatch]
          exact Option.some_ne_none _
        · exact draining_of_settled
  · cases hstep with
    | @harvested t fl _ _ _ hmem =>
        obtain ⟨lat, hlat⟩ := RknpuQueueTask.harvestSlot_eq t slot status timeNs
        have hframe : (t.harvestSlot slot status timeNs).frame = t.frame := by
          rw [hlat]
          exact RknpuQueueTask.frame_recordCompletion t slot.laneSlot slot.taskIndex status
        refine ⟨hframe.trans h.frame, (List.erase_sublist.map _).nodup h.nodup, ?_, ?_, ?_, ?_, ?_⟩
        · intro slot' hmem'
          rw [allowsCore_of_frame hframe]
          exact h.cores slot' (List.mem_of_mem_erase hmem')
        · intro hs
          exact (h.static hs).harvest hm hs hlen hmem status timeNs
        · intro hd
          exact (h.dynamic hd).harvest hm hd hlen hmem status timeNs
        · intro hne
          have hbefore := h.failed (by simpa [failedSlots] using hne)
          rw [hlat]
          exact RknpuQueueTask.lastError_recordCompletion_ne_none hbefore _ _ _
        · intro hlive he
          rw [hlat] at he ⊢
          exact draining_of_settled hlive he
  · obtain ⟨err, lat, htask⟩ := hq.task
    have hframe : ℓ'.task.frame = ℓ.task.frame := by rw [htask]; rfl
    have hrunning : ℓ'.task.hasRunningTasks = ℓ.task.hasRunningTasks := by rw [htask]; rfl
    refine ⟨hframe.trans h.frame, (hq.sublist.map _).nodup h.nodup, ?_, ?_, ?_, ?_, ?_⟩
    · intro slot' hmem'
      rw [allowsCore_of_frame hframe]
      exact h.cores slot' (hq.sublist.subset hmem')
    · intro hs
      exact (h.static hs).quiet hq
    · intro hd
      exact (h.dynamic hd).quiet hm hd hq
    · intro hne he
      refine h.failed ?_ (hq.error he)
      simpa [hq.ledger.2.2] using hne
    · intro hlive he
      rw [hrunning]
      rcases hq.drain hlive he with hbefore | hrun
      · exact h.draining (hq.live hlive).1 hbefore
      · exact hrun

end Life.Inv

/-- Nothing can happen to a submit that is gone and has nothing in flight. -/
theorem Life.Steps.of_gone {t : RknpuQueueTask} {evs : List SubmitEvent} {ℓ' : Life}
    (h : Life.Steps ⟨t, .gone, []⟩ evs ℓ') : evs = [] ∧ ℓ' = ⟨t, .gone, []⟩ := by
  cases h with
  | nil => exact ⟨rfl, rfl⟩
  | cons hstep _ =>
      cases hstep with
      | orphaned _ hmem => cases hmem

/-- A submit that is gone stays gone. -/
theorem Life.Steps.gone {ℓ ℓ' : Life} {evs : List SubmitEvent} (h : Life.Steps ℓ evs ℓ') (hg : ℓ.place = .gone) :
    ℓ'.place = .gone := by
  induction h with
  | nil => exact hg
  | cons hstep _ ih =>
      refine ih ?_
      cases hstep with
      | orphaned => exact hg
      | _ => cases hg

/-- A submit that was taken is gone. -/
theorem Life.Reach.gone_of_taken {id : RknpuQueueTaskId} {queued : RknpuQueuedSubmit} {evs : List SubmitEvent} {ℓ : Life}
    (h : Life.Reach id queued evs ℓ) {t : RknpuQueueTask} (hmem : .taken t ∈ evs) : ℓ.place = .gone := by
  induction h with
  | start => cases hmem
  | step _ hstep ih =>
      rcases List.mem_append.mp hmem with hmem | hmem
      · exact (Life.Steps.cons hstep .nil).gone (ih hmem)
      · cases List.mem_singleton.mp hmem
        cases hstep
        rfl

/-- The events that make a submit go away. -/
def SubmitEvent.Removes : SubmitEvent → Prop
  | .dropped | .aborted | .taken _ => True
  | _ => False

theorem Life.Step.stays {ℓ ℓ' : Life} {e : SubmitEvent} (h : Life.Step ℓ e ℓ') (hno : ¬ e.Removes) :
    (ℓ.place ≠ .gone → ℓ'.place ≠ .gone) ∧ (ℓ.place = .complete → ℓ'.place = .complete) := by
  cases h with
  | reserved => exact ⟨nofun, nofun⟩
  | launched => exact ⟨nofun, nofun⟩
  | failed => exact ⟨fun _ => settledPlace_ne_gone, nofun⟩
  | harvested => exact ⟨fun _ => settledPlace_ne_gone, nofun⟩
  | orphaned => exact ⟨id, id⟩
  | readFailed => exact ⟨nofun, fun _ => rfl⟩
  | woken => exact ⟨nofun, fun _ => rfl⟩
  | dropped => exact (hno trivial).elim
  | abortedLive => exact (hno trivial).elim
  | abortedDone => exact (hno trivial).elim
  | taken => exact (hno trivial).elim

/-- Without such an event, a submit that is there stays, and a complete one stays complete. -/
theorem Life.Steps.stays {ℓ ℓ' : Life} {evs : List SubmitEvent} (h : Life.Steps ℓ evs ℓ')
    (hno : ∀ e ∈ evs, ¬ e.Removes) :
    (ℓ.place ≠ .gone → ℓ'.place ≠ .gone) ∧ (ℓ.place = .complete → ℓ'.place = .complete) := by
  induction h with
  | nil => exact ⟨id, id⟩
  | cons hstep _ ih =>
      obtain ⟨hgone, hcomplete⟩ := hstep.stays (hno _ (List.mem_cons_self ..))
      obtain ⟨hgone', hcomplete'⟩ := ih fun e he => hno e (List.mem_cons_of_mem _ he)
      exact ⟨hgone' ∘ hgone, hcomplete' ∘ hcomplete⟩

/-- Every history keeps the invariant. -/
theorem Life.Reach.inv {id : RknpuQueueTaskId} {queued : RknpuQueuedSubmit} {evs : List SubmitEvent} {ℓ : Life}
    (hfits : queued.Fits) (h : Life.Reach id queued evs ℓ) : Life.Inv id queued evs ℓ := by
  induction h with
  | start timeNs => exact Life.Inv.start id queued timeNs
  | step _ hstep ih => exact ih.step hfits hstep

end Rknpu.Queue
