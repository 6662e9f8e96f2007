import Rknpu.Service.Lemmas.Decision

/-!
# Consistency of the queues

`Filed` says where one id may stand: in Running exactly when its live submit has tasks in flight, in
Ready only when it has none, each time in the bucket of its own priority, and in one of the two whenever
it can dispatch. Every locked section keeps all ids filed. Sections that change one record end with
`reclassify_task`, which files that id anew whatever was changed.
-/

namespace Rknpu.Service

open Queue

variable {W : Type}

namespace NpuSchedulerState

/-! ## Filed ids -/

/-- The place of one id in the queues. -/
structure Filed (s : NpuSchedulerState W) (taskId : RknpuQueueTaskId) : Prop where
  ready : ∀ p, s.ready.MemAt p taskId →
    ∃ t, s.tasks[taskId]? = some t ∧ t.submitMeta.priority = p ∧ t.hasRunningTasks = false
  running : ∀ p, s.running.MemAt p taskId ↔
    ∃ t, s.tasks[taskId]? = some t ∧ t.submitMeta.priority = p ∧ t.hasRunningTasks = true
  queued : ∀ t, s.tasks[taskId]? = some t → t.hasRunningTasks = false → t.hasDispatchableTask = true →
    s.ready.MemAt t.submitMeta.priority taskId
  owned : ∀ t, s.tasks[taskId]? = some t → s.complete[taskId]? = none

/-- All ids are filed, and the buckets are well-formed. -/
structure Consistent (s : NpuSchedulerState W) : Prop where
  readyWF : s.ready.WF
  runningWF : s.running.WF
  filed : ∀ taskId, s.Filed taskId

variable {s s' : NpuSchedulerState W} {taskId : RknpuQueueTaskId}

/-- `Filed` looks at one id only, and at its record only through three answers. -/
theorem Filed.congr (h : s.Filed taskId) (hready : ∀ p, s'.ready.MemAt p taskId ↔ s.ready.MemAt p taskId)
    (hrunning : ∀ p, s'.running.MemAt p taskId ↔ s.running.MemAt p taskId)
    (htasks : ∀ t', s'.tasks[taskId]? = some t' → ∃ t, s.tasks[taskId]? = some t ∧
      t'.submitMeta.priority = t.submitMeta.priority ∧ t'.hasRunningTasks = t.hasRunningTasks ∧
      t'.hasDispatchableTask = t.hasDispatchableTask)
    (hnone : s'.tasks[taskId]? = none → s.tasks[taskId]? = none)
    (hcomplete : s.complete[taskId]? = none → s'.complete[taskId]? = none) : s'.Filed taskId := by
  have hback : ∀ t, s.tasks[taskId]? = some t → ∃ t', s'.tasks[taskId]? = some t' ∧
      t'.submitMeta.priority = t.submitMeta.priority ∧ t'.hasRunningTasks = t.hasRunningTasks := by
    intro t ht
    cases ht' : s'.tasks[taskId]? with
    | none =>
        rw [hnone ht'] at ht
        cases ht
    | some t' =>
        obtain ⟨t₀, ht₀, hp, hr, _⟩ := htasks t' ht'
        rw [ht, Option.some.injEq] at ht₀
        subst ht₀
        exact ⟨t', rfl, hp, hr⟩
  refine ⟨?_, ?_, ?_, ?_⟩
  · intro p hmem
    obtain ⟨t, ht, hp, hr⟩ := h.ready p ((hready p).mp hmem)
    obtain ⟨t', ht', hp', hr'⟩ := hback t ht
    exact ⟨t', ht', hp'.trans hp, hr'.trans hr⟩
  · intro p
    rw [hrunning p, h.running p]
    constructor
    · rintro ⟨t, ht, hp, hr⟩
      obtain ⟨t', ht', hp', hr'⟩ := hback t ht
      exact ⟨t', ht', hp'.trans hp, hr'.trans hr⟩
    · rintro ⟨t', ht', hp, hr⟩
      obtain ⟨t, ht, hp', hr', _⟩ := htasks t' ht'
      exact ⟨t, ht, hp'.symm.trans hp, hr'.symm.trans hr⟩
  · intro t' ht' hr hd
    obtain ⟨t, ht, hp', hr', hd'⟩ := htasks t' ht'
    rw [hready, hp']
    exact h.queued t ht (hr'.symm.trans hr) (hd'.symm.trans hd)
  · intro t' ht'
    obtain ⟨t, ht, _⟩ := htasks t' ht'
    exact hcomplete (h.owned t ht)

theorem Filed.of_frame (h : s.Filed taskId) (hready : ∀ p, s'.ready.MemAt p taskId ↔ s.ready.MemAt p taskId)
    (hrunning : ∀ p, s'.running.MemAt p taskId ↔ s.running.MemAt p taskId)
    (htasks : s'.tasks[taskId]? = s.tasks[taskId]?) (hcomplete : s'.complete[taskId]? = s.complete[taskId]?) :
    s'.Filed taskId := by
  refine h.congr hready hrunning ?_ (fun hn => by rw [← htasks, hn]) (fun hn => by rw [hcomplete, hn])
  intro t ht
  exact ⟨t, by rw [← htasks, ht], rfl, rfl, rfl⟩

/-- An id that is neither live nor complete stands nowhere. -/
theorem Filed.of_absent (hready : ∀ p, ¬ s.ready.MemAt p taskId) (hrunning : ∀ p, ¬ s.running.MemAt p taskId)
    (htasks : s.tasks[taskId]? = none) : s.Filed taskId := by
  refine ⟨fun p hmem => (hready p hmem).elim, ?_, ?_, ?_⟩
  · intro p
    simp only [hrunning p, htasks, reduceCtorEq, false_and, exists_false]
  · intro t ht
    rw [htasks] at ht
    cases ht
  · intro t ht
    rw [htasks] at ht
    cases ht

/-- A live id is filed by comparing its buckets with its own record. -/
theorem Filed.of_record {t : RknpuQueueTask} (ht : s.tasks[taskId]? = some t)
    (hready : ∀ p, s.ready.MemAt p taskId → p = t.submitMeta.priority ∧ t.hasRunningTasks = false)
    (hrunning : ∀ p, s.running.MemAt p taskId ↔ p = t.submitMeta.priority ∧ t.hasRunningTasks = true)
    (hqueued : t.hasRunningTasks = false → t.hasDispatchableTask = true →
      s.ready.MemAt t.submitMeta.priority taskId)
    (howned : s.complete[taskId]? = none) : s.Filed taskId := by
  have honly : ∀ t', s.tasks[taskId]? = some t' → t' = t := by
    intro t' ht'
    rw [ht, Option.some.injEq] at ht'
    exact ht'.symm
  refine ⟨?_, ?_, ?_, fun _ _ => howned⟩
  · intro p hmem
    obtain ⟨hp, hr⟩ := hready p hmem
    exact ⟨t, ht, hp.symm, hr⟩
  · intro p
    rw [hrunning p]
    constructor
    · rintro ⟨hp, hr⟩
      exact ⟨t, ht, hp.symm, hr⟩
    · rintro ⟨t', ht', hp, hr⟩
      rw [honly t' ht'] at hp hr
      exact ⟨hp.symm, hr⟩
  · intro t' ht'
    rw [honly t' ht']
    exact hqueued

theorem Consistent.not_memAt_of_absent (h : s.Consistent) (htasks : s.tasks[taskId]? = none) (p : Int32) :
    ¬ s.ready.MemAt p taskId ∧ ¬ s.running.MemAt p taskId := by
  constructor
  · intro hmem
    obtain ⟨t, ht, _⟩ := (h.filed taskId).ready p hmem
    rw [htasks] at ht
    cases ht
  · intro hmem
    obtain ⟨t, ht, _⟩ := ((h.filed taskId).running p).mp hmem
    rw [htasks] at ht
    cases ht

theorem Consistent.new : (NpuSchedulerState.new : NpuSchedulerState W).Consistent where
  readyWF := PrioBuckets.WF.empty
  runningWF := PrioBuckets.WF.empty
  filed := fun _ => .of_absent (fun _ => PrioBuckets.not_memAt_empty _ _)
    (fun _ => PrioBuckets.not_memAt_empty _ _) (by simp [NpuSchedulerState.new])

/-! ## Filing an id anew -/

/-- The state with an id taken out of both bucket structures. -/
def unfile (s : NpuSchedulerState W) (taskId : RknpuQueueTaskId) : NpuSchedulerState W :=
  { s with ready := s.ready.remove taskId, running := s.running.remove taskId }

/-- `reclassify_task`, case by case. -/
theorem reclassifyTask_cases (s : NpuSchedulerState W) (taskId : RknpuQueueTaskId) :
    (s.tasks[taskId]? = none ∧ s.reclassifyTask taskId = (none, s.unfile taskId)) ∨
    ∃ t, s.tasks[taskId]? = some t ∧
      ((t.isTerminal = true ∧ s.reclassifyTask taskId =
          (some taskId, { s.unfile taskId with
            tasks := s.tasks.erase taskId, complete := s.complete.insert taskId t })) ∨
        (t.isTerminal = false ∧ t.hasRunningTasks = true ∧ s.reclassifyTask taskId =
          (none, { s.unfile taskId with
            running := (s.running.remove taskId).push t.submitMeta.priority taskId })) ∨
        (t.isTerminal = false ∧ t.hasRunningTasks = false ∧ t.hasDispatchableTask = true ∧
          s.reclassifyTask taskId =
            (none, { s.unfile taskId with
              ready := (s.ready.remove taskId).push t.submitMeta.priority taskId })) ∨
        (t.isTerminal = false ∧ t.hasRunningTasks = false ∧ t.hasDispatchableTask = false ∧
          s.reclassifyTask taskId = (none, s.unfile taskId))) := by
  cases ht : s.tasks[taskId]? with
  | none =>
      refine .inl ⟨rfl, ?_⟩
      simp only [reclassifyTask, ht]
      rfl
  | some t =>
      refine .inr ⟨t, rfl, ?_⟩
      simp only [reclassifyTask, ht, RknpuQueueTask.isTerminal]
      cases t.isTerminalSuccess || t.isTerminalFault with
      | true => exact .inl ⟨rfl, rfl⟩
      | false =>
          cases t.hasRunningTasks with
          | true => exact .inr (.inl ⟨rfl, rfl, rfl⟩)
          | false =>
              cases t.hasDispatchableTask with
              | true => exact .inr (.inr (.inl ⟨rfl, rfl, rfl, rfl⟩))
              | false => exact .inr (.inr (.inr ⟨rfl, rfl, rfl, rfl⟩))

theorem reclassifyTask_frame (s : NpuSchedulerState W) (taskId : RknpuQueueTaskId) :
    (s.reclassifyTask taskId).2.coreBinding = s.coreBinding ∧ (s.reclassifyTask taskId).2.waiters = s.waiters := by
  rcases reclassifyTask_cases s taskId with ⟨_, he⟩ | ⟨t, _, ⟨_, he⟩ | ⟨_, _, he⟩ | ⟨_, _, _, he⟩ | ⟨_, _, _, he⟩⟩
  all_goals
    rw [he]
    exact ⟨rfl, rfl⟩

theorem reclassifyTask_others {id : RknpuQueueTaskId} (h : id ≠ taskId) :
    (s.reclassifyTask taskId).2.tasks[id]? = s.tasks[id]? ∧
      (s.reclassifyTask taskId).2.complete[id]? = s.complete[id]? := by
  rcases reclassifyTask_cases s taskId with ⟨_, he⟩ | ⟨t, _, ⟨_, he⟩ | ⟨_, _, he⟩ | ⟨_, _, _, he⟩ | ⟨_, _, _, he⟩⟩
  · rw [he]
    exact ⟨rfl, rfl⟩
  · rw [he]
    exact ⟨Std.ExtTreeMap.getElem?_erase_of_ne (Ne.symm h), Std.ExtTreeMap.getElem?_insert_of_ne (Ne.symm h)⟩
  all_goals
    rw [he]
    exact ⟨rfl, rfl⟩

/-- A terminal submit changes hands, any other stays live. -/
theorem reclassifyTask_self {t : RknpuQueueTask} (ht : s.tasks[taskId]? = some t) :
    (s.reclassifyTask taskId).1 = (if t.isTerminal then some taskId else none) ∧
      (s.reclassifyTask taskId).2.tasks[taskId]? = (if t.isTerminal then none else some t) ∧
      (s.reclassifyTask taskId).2.complete[taskId]? = (if t.isTerminal then some t else s.complete[taskId]?) := by
  rcases reclassifyTask_cases s taskId with ⟨hnone, _⟩ | ⟨t', ht', hcases⟩
  · rw [hnone] at ht
    cases ht
  · rw [ht, Option.some.injEq] at ht'
    subst ht'
    rcases hcases with ⟨hterm, he⟩ | ⟨hterm, _, he⟩ | ⟨hterm, _, _, he⟩ | ⟨hterm, _, _, he⟩
    · rw [he, hterm]
      exact ⟨rfl, Std.ExtTreeMap.getElem?_erase_self, Std.ExtTreeMap.getElem?_insert_self⟩
    all_goals
      rw [he, hterm]
      exact ⟨rfl, ht, rfl⟩

/-- No record appears in `tasks`. -/
theorem of_tasks_reclassifyTask {id : RknpuQueueTaskId} {t : RknpuQueueTask}
    (h : (s.reclassifyTask taskId).2.tasks[id]? = some t) : s.tasks[id]? = some t := by
  by_cases hid : id = taskId
  · subst hid
    cases ht : s.tasks[id]? with
    | none =>
        rcases reclassifyTask_cases s id with ⟨_, he⟩ | ⟨t', ht', _⟩
        · rw [he] at h
          cases ht.symm.trans h
        · cases ht.symm.trans ht'
    | some t' =>
        rw [(reclassifyTask_self ht).2.1] at h
        split at h
        · cases h
        · exact h
  · rw [← (reclassifyTask_others hid).1]
    exact h

/-- `reclassify_task` repairs whatever was wrong with its own id. -/
theorem Consistent.reclassifyTask (hready : s.ready.WF) (hrunning : s.running.WF)
    (hothers : ∀ id, id ≠ taskId → s.Filed id)
    (howned : ∀ t, s.tasks[taskId]? = some t → s.complete[taskId]? = none) :
    (s.reclassifyTask taskId).2.Consistent := by
  have hready' := hready.remove taskId
  have hrunning' := hrunning.remove taskId
  have hr : ∀ p id, (s.ready.remove taskId).MemAt p id ↔ s.ready.MemAt p id ∧ id ≠ taskId :=
    fun p id => PrioBuckets.memAt_remove hready
  have hw : ∀ p id, (s.running.remove taskId).MemAt p id ↔ s.running.MemAt p id ∧ id ≠ taskId :=
    fun p id => PrioBuckets.memAt_remove hrunning
  have hgone : ∀ p, ¬ (s.ready.remove taskId).MemAt p taskId ∧ ¬ (s.running.remove taskId).MemAt p taskId := by
    intro p
    rw [hr, hw]
    exact ⟨fun h => h.2 rfl, fun h => h.2 rfl⟩
  rcases reclassifyTask_cases s taskId with ⟨hnone, he⟩ | ⟨t, ht, hcases⟩
  · rw [he]
    refine ⟨hready', hrunning', fun id => ?_⟩
    by_cases hid : id = taskId
    · subst hid
      exact .of_absent (fun p => (hgone p).1) (fun p => (hgone p).2) hnone
    · exact (hothers id hid).of_frame (fun p => by simp [unfile, hr, hid]) (fun p => by simp [unfile, hw, hid])
        rfl rfl
  · have howned' := howned t ht
    rcases hcases with ⟨_, he⟩ | ⟨_, hrun, he⟩ | ⟨_, hrun, hdisp, he⟩ | ⟨_, hrun, hdisp, he⟩
    · rw [he]
      refine ⟨hready', hrunning', fun id => ?_⟩
      by_cases hid : id = taskId
      · subst hid
        exact .of_absent (fun p => (hgone p).1) (fun p => (hgone p).2) (by simp)
      · refine (hothers id hid).of_frame (fun p => by simp [unfile, hr, hid])
          (fun p => by simp [unfile, hw, hid]) ?_ ?_
        · exact Std.ExtTreeMap.getElem?_erase_of_ne (Ne.symm hid)
        · exact Std.ExtTreeMap.getElem?_insert_of_ne (Ne.symm hid)
    · rw [he]
      refine ⟨hready', hrunning'.push _ _, fun id => ?_⟩
      by_cases hid : id = taskId
      · subst hid
        refine .of_record ht (fun p hmem => ((hgone p).1 hmem).elim) ?_ (by simp [hrun]) howned'
        simp [PrioBuckets.memAt_push, (hgone _).2, hrun]
      · exact (hothers id hid).of_frame (fun p => by simp [unfile, hr, hid])
          (fun p => by simp [PrioBuckets.memAt_push, hw, hid]) rfl rfl
    · rw [he]
      refine ⟨hready'.push _ _, hrunning', fun id => ?_⟩
      by_cases hid : id = taskId
      · subst hid
        refine .of_record ht ?_ ?_ (fun _ _ => PrioBuckets.memAt_push.mpr (.inr ⟨rfl, rfl⟩)) howned'
        · simp [PrioBuckets.memAt_push, (hgone _).1, hrun]
        · simp [unfile, (hgone _).2, hrun]
      · exact (hothers id hid).of_frame (fun p => by simp [PrioBuckets.memAt_push, hr, hid])
          (fun p => by simp [unfile, hw, hid]) rfl rfl
    · rw [he]
      refine ⟨hready', hrunning', fun id => ?_⟩
      by_cases hid : id = taskId
      · subst hid
        refine .of_record ht (fun p hmem => ((hgone p).1 hmem).elim) ?_ (by simp [hdisp]) howned'
        simp [unfile, (hgone _).2, hrun]
      · exact (hothers id hid).of_frame (fun p => by simp [unfile, hr, hid])
          (fun p => by simp [unfile, hw, hid]) rfl rfl

/-! ## The locked sections -/

theorem Consistent.enqueueSubmit (h : s.Consistent) {nextId : UInt64} (htasks : s.tasks[nextId]? = none)
    (hcomplete : s.complete[nextId]? = none) (queued : RknpuQueuedSubmit) (waiter : W) (timeNs : UInt64) :
    (s.enqueueSubmit nextId queued waiter timeNs).2.2.Consistent := by
  have hrecord : (s.enqueueSubmit nextId queued waiter timeNs).2.2.tasks[nextId]? =
      some ((RknpuQueueTask.new nextId queued).markEnqueued timeNs) := by
    simp [NpuSchedulerState.enqueueSubmit, enqueueTask]
  have hidle := RknpuQueueTask.hasRunningTasks_new nextId queued timeNs
  refine ⟨h.readyWF.push _ _, h.runningWF, fun id => ?_⟩
  by_cases hid : id = nextId
  · subst hid
    refine .of_record hrecord ?_ ?_ (fun _ _ => PrioBuckets.memAt_push.mpr (.inr ⟨rfl, rfl⟩)) hcomplete
    · intro p hmem
      rcases PrioBuckets.memAt_push.mp hmem with hmem | ⟨rfl, _⟩
      · exact ((h.not_memAt_of_absent htasks p).1 hmem).elim
      · exact ⟨rfl, hidle⟩
    · intro p
      refine iff_of_false (h.not_memAt_of_absent htasks p).2 ?_
      simp [hidle]
  · refine (h.filed id).of_frame (fun p => ?_) (fun p => Iff.rfl) ?_ rfl
    · exact PrioBuckets.memAt_push.trans (by simp [hid])
    · exact (Std.ExtTreeMap.getElem?_modify_of_ne (Ne.symm hid)).trans
        (Std.ExtTreeMap.getElem?_insert_of_ne (Ne.symm hid))

/-- A decision keeps the queues consistent, provided the running counter of the chosen submit has room. -/
theorem Consistent.decided (h : s.Consistent) {r : Option DispatchSetup × NpuSchedulerState W}
    (hroom : ∀ (id : RknpuQueueTaskId) (t : RknpuQueueTask) (slot : Slot), s.tasks[id]? = some t →
      t.nextDispatchableTask = some (slot.laneSlot, slot.taskIndex) → (t.reserveSlot slot).hasRunningTasks = true)
    (hr : Decided s r) : r.2.Consistent := by
  cases hr with
  | nothing _ => exact h
  | @continued coreSlot priority binding task taskDesc _ _ hcand =>
      have hrun := hroom _ _ (binding.slot coreSlot) hcand.live hcand.next
      have hprio : (task.reserveSlot (binding.slot coreSlot)).submitMeta.priority = task.submitMeta.priority :=
        congrArg (fun f => f.2.1.priority) (RknpuQueueTask.frame_reserveSlot task (binding.slot coreSlot))
      have hmem : s.running.MemAt priority binding.taskId := (PrioBuckets.firstWhere_memAt hcand.first).1
      obtain ⟨t, ht, hp, hr⟩ := ((h.filed _).running _).mp hmem
      rw [hcand.live, Option.some.injEq] at ht
      subst ht
      refine ⟨h.readyWF, h.runningWF, fun id => ?_⟩
      by_cases hid : id = binding.taskId
      · subst hid
        refine .of_record Std.ExtTreeMap.getElem?_insert_self ?_ ?_ (by simp [hrun])
          ((h.filed _).owned _ hcand.live)
        · intro p hready
          obtain ⟨t', ht', _, hno⟩ := (h.filed _).ready p hready
          rw [hcand.live, Option.some.injEq] at ht'
          subst ht'
          rw [hr] at hno
          cases hno
        · intro p
          refine ((h.filed _).running p).trans ?_
          simp only [hcand.live, Option.some.injEq, exists_eq_left', hprio, hrun, hr, and_true]
          exact eq_comm
      · exact (h.filed id).of_frame (fun _ => Iff.rfl) (fun _ => Iff.rfl)
          (Std.ExtTreeMap.getElem?_insert_of_ne (Ne.symm hid)) rfl
  | @promoted coreSlot priority binding task taskDesc _ _ _ hcand =>
      have hrun := hroom _ _ (binding.slot coreSlot) hcand.live hcand.next
      have hprio : (task.reserveSlot (binding.slot coreSlot)).submitMeta.priority = task.submitMeta.priority :=
        congrArg (fun f => f.2.1.priority) (RknpuQueueTask.frame_reserveSlot task (binding.slot coreSlot))
      have hmem : s.ready.MemAt priority binding.taskId := (PrioBuckets.firstWhere_memAt hcand.first).1
      have honly : ∀ p, s.ready.MemAt p binding.taskId → p = priority := by
        intro p hp
        obtain ⟨t, ht, rfl, _⟩ := (h.filed _).ready _ hmem
        obtain ⟨t', ht', rfl, _⟩ := (h.filed _).ready _ hp
        rw [ht, Option.some.injEq] at ht'
        rw [ht']
      have hidle : ∀ p, ¬ s.running.MemAt p binding.taskId := by
        intro p hp
        obtain ⟨t, ht, _, hno⟩ := (h.filed _).ready _ hmem
        obtain ⟨t', ht', _, hyes⟩ := ((h.filed _).running p).mp hp
        rw [ht, Option.some.injEq] at ht'
        subst ht'
        rw [hno] at hyes
        cases hyes
      have hdrop := PrioBuckets.dropAt_eq_remove h.readyWF honly
      have hready : ∀ p id, (PrioBuckets.dropAt binding.taskId s.ready priority).MemAt p id ↔
          s.ready.MemAt p id ∧ id ≠ binding.taskId := by
        intro p id
        rw [hdrop]
        exact PrioBuckets.memAt_remove h.readyWF
      refine ⟨?_, h.runningWF.push _ _, fun id => ?_⟩
      · change (PrioBuckets.dropAt binding.taskId s.ready priority).WF
        rw [hdrop]
        exact h.readyWF.remove _
      · by_cases hid : id = binding.taskId
        · subst hid
          refine .of_record Std.ExtTreeMap.getElem?_insert_self ?_ ?_ (by simp [hrun])
            ((h.filed _).owned _ hcand.live)
          · intro p hp
            exact (((hready p _).mp hp).2 rfl).elim
          · intro p
            refine PrioBuckets.memAt_push.trans ?_
            simp [hidle, hprio, hrun]
        · refine (h.filed id).of_frame (fun p => ?_) (fun p => ?_)
            (Std.ExtTreeMap.getElem?_insert_of_ne (Ne.symm hid)) rfl
          · exact (hready p id).trans (by simp [hid])
          · exact PrioBuckets.memAt_push.trans (by simp [hid])

theorem Consistent.markDispatched (h : s.Consistent) (taskId : RknpuQueueTaskId) (timeNs : UInt64) :
    (s.markDispatched taskId timeNs).Consistent := by
  have hsame : ∀ t : RknpuQueueTask, (t.markFirstDispatch timeNs).submitMeta.priority = t.submitMeta.priority ∧
      (t.markFirstDispatch timeNs).hasRunningTasks = t.hasRunningTasks ∧
      (t.markFirstDispatch timeNs).hasDispatchableTask = t.hasDispatchableTask := by
    intro t
    unfold RknpuQueueTask.markFirstDispatch
    split
    · exact ⟨rfl, rfl, rfl⟩
    · exact ⟨rfl, rfl, rfl⟩
  refine ⟨h.readyWF, h.runningWF, fun id => ?_⟩
  refine (h.filed id).congr (fun _ => Iff.rfl) (fun _ => Iff.rfl) ?_
    Std.ExtTreeMap.getElem?_modify_eq_none_iff.mp (fun hn => hn)
  intro t' ht'
  by_cases hid : taskId = id
  · subst hid
    obtain ⟨t, ht, rfl⟩ := Option.map_eq_some_iff.mp (Std.ExtTreeMap.getElem?_modify_self.symm.trans ht')
    exact ⟨t, ht, hsame t⟩
  · exact ⟨t', (Std.ExtTreeMap.getElem?_modify_of_ne hid).symm.trans ht', rfl, rfl, rfl⟩

/-- Sections that change one live record and file it anew. -/
theorem Consistent.update_reclassify (h : s.Consistent) {tasks : TaskMap} {coreBinding : CoreMap}
    {waiters : Std.ExtTreeMap RknpuQueueTaskId W compare}
    (hothers : ∀ id, id ≠ taskId → tasks[id]? = s.tasks[id]?)
    (hnone : s.tasks[taskId]? = none → tasks[taskId]? = none) :
    (({ s with tasks, coreBinding, waiters } : NpuSchedulerState W).reclassifyTask taskId).2.Consistent := by
  refine Consistent.reclassifyTask h.readyWF h.runningWF ?_ ?_
  · intro id hid
    exact (h.filed id).of_frame (fun _ => Iff.rfl) (fun _ => Iff.rfl) (hothers id hid) rfl
  · intro t ht
    cases hs : s.tasks[taskId]? with
    | none =>
        rw [hnone hs] at ht
        cases ht
    | some t₀ => exact (h.filed taskId).owned t₀ hs

theorem Consistent.failDispatch (h : s.Consistent) (coreSlot : Nat) (binding : CoreRunBinding)
    (err : RknpuError) : (s.failDispatch coreSlot binding err).2.Consistent :=
  h.update_reclassify (fun _ hid => Std.ExtTreeMap.getElem?_modify_of_ne (Ne.symm hid))
    Std.ExtTreeMap.getElem?_modify_eq_none_iff.mpr

/-- Sections that touch `complete` and the waiters only. -/
theorem Consistent.of_complete (h : s.Consistent) {complete : TaskMap}
    {waiters : Std.ExtTreeMap RknpuQueueTaskId W compare}
    (hc : ∀ id : RknpuQueueTaskId, s.complete[id]? = none → complete[id]? = none) :
    ({ s with complete, waiters } : NpuSchedulerState W).Consistent :=
  ⟨h.readyWF, h.runningWF, fun id => (h.filed id).congr (fun _ => Iff.rfl) (fun _ => Iff.rfl)
    (fun t ht => ⟨t, ht, rfl, rfl, rfl⟩) (fun hn => hn) (hc id)⟩

/-! ## One completion -/

/-- A completion is recorded, before the submit is filed anew. -/
def record (s : NpuSchedulerState W) (completion : CoreCompletion) (binding : CoreRunBinding) (task : RknpuQueueTask) :
    NpuSchedulerState W :=
  { s with
    coreBinding := s.coreBinding.erase completion.coreSlot.toNat
    tasks := s.tasks.insert binding.taskId
      (task.recordCompletion binding.laneSlot binding.taskIndex completion.observedIrqStatus) }

/-- The time of the harvest goes to the submit that was moved. -/
def stampTerminal (timeNs : UInt64) (r : Option RknpuQueueTaskId × NpuSchedulerState W) :
    Option RknpuQueueTaskId × NpuSchedulerState W :=
  (r.1, { r.2 with
    complete := r.1.elim r.2.complete fun taskId => r.2.complete.modify taskId (·.markTerminal timeNs) })

theorem complete_stampTerminal {timeNs : UInt64} {r : Option RknpuQueueTaskId × NpuSchedulerState W}
    {id : RknpuQueueTaskId} : (stampTerminal timeNs r).2.complete[id]? = none ↔ r.2.complete[id]? = none := by
  obtain ⟨moved, s⟩ := r
  cases moved with
  | none => rfl
  | some taskId => exact Std.ExtTreeMap.getElem?_modify_eq_none_iff

/-- What one turn of the harvest loop does: nothing on an idle core, only the binding goes when the submit has left,
and otherwise the submit is filed with its new record. -/
inductive Harvested (s : NpuSchedulerState W) (completion : CoreCompletion) (timeNs : UInt64) :
    Option RknpuQueueTaskId × NpuSchedulerState W → Prop where
  | idle : s.coreBinding[completion.coreSlot.toNat]? = none → Harvested s completion timeNs (none, s)
  | orphaned {binding : CoreRunBinding} :
      s.coreBinding[completion.coreSlot.toNat]? = some binding → s.tasks[binding.taskId]? = none →
      Harvested s completion timeNs
        (none, { s with coreBinding := s.coreBinding.erase completion.coreSlot.toNat })
  | filed {binding : CoreRunBinding} {task : RknpuQueueTask} :
      s.coreBinding[completion.coreSlot.toNat]? = some binding → s.tasks[binding.taskId]? = some task →
      Harvested s completion timeNs
        (stampTerminal timeNs ((s.record completion binding task).reclassifyTask binding.taskId))

theorem harvestCompletion_harvested (s : NpuSchedulerState W) (completion : CoreCompletion) (timeNs : UInt64) :
    Harvested s completion timeNs (s.harvestCompletion completion timeNs) := by
  unfold NpuSchedulerState.harvestCompletion
  dsimp only
  cases hbound : s.coreBinding[completion.coreSlot.toNat]? with
  | none => exact .idle hbound
  | some binding =>
      cases htask : s.tasks[binding.taskId]? with
      | none => simpa only [htask] using .orphaned hbound htask
      | some task =>
          have hfiled : Harvested s completion timeNs _ := .filed hbound htask
          simp only [htask]
          unfold record at hfiled
          split
          · rename_i he
            rw [he] at hfiled
            exact hfiled
          · rename_i he
            rw [he] at hfiled
            exact hfiled

theorem Consistent.harvestCompletion (h : s.Consistent) (completion : CoreCompletion) (timeNs : UInt64) :
    (s.harvestCompletion completion timeNs).2.Consistent := by
  have hharvest := harvestCompletion_harvested s completion timeNs
  generalize s.harvestCompletion completion timeNs = r at hharvest
  cases hharvest with
  | idle _ => exact h
  | orphaned _ _ =>
      exact ⟨h.readyWF, h.runningWF, fun id =>
        (h.filed id).of_frame (fun _ => Iff.rfl) (fun _ => Iff.rfl) rfl rfl⟩
  | @filed binding task _ htask =>
      have hfiled : ((s.record completion binding task).reclassifyTask binding.taskId).2.Consistent := by
        apply h.update_reclassify
        · exact fun _ hid => Std.ExtTreeMap.getElem?_insert_of_ne (Ne.symm hid)
        · exact fun hn => nomatch hn.symm.trans htask
      exact hfiled.of_complete fun _ => complete_stampTerminal.mpr

/-- A harvest touches no waiter and no core but its own. -/
theorem harvestCompletion_frame (s : NpuSchedulerState W) (completion : CoreCompletion) (timeNs : UInt64) :
    (∀ c : Nat, completion.coreSlot.toNat ≠ c →
      (s.harvestCompletion completion timeNs).2.coreBinding[c]? = s.coreBinding[c]?) ∧
      (s.harvestCompletion completion timeNs).2.waiters = s.waiters := by
  have hharvest := harvestCompletion_harvested s completion timeNs
  generalize s.harvestCompletion completion timeNs = r at hharvest
  cases hharvest with
  | idle _ => exact ⟨fun _ _ => rfl, rfl⟩
  | orphaned _ _ => exact ⟨fun _ hc => Std.ExtTreeMap.getElem?_erase_of_ne hc, rfl⟩
  | @filed binding task _ _ =>
      have hframe := reclassifyTask_frame (s.record completion binding task) binding.taskId
      exact ⟨fun c hc => hframe.1 ▸ Std.ExtTreeMap.getElem?_erase_of_ne hc, hframe.2⟩

theorem harvestCompletions_cons (s : NpuSchedulerState W) (completion : CoreCompletion) (timeNs : UInt64)
    (completions : List (CoreCompletion × UInt64)) :
    s.harvestCompletions ((completion, timeNs) :: completions) =
      ((s.harvestCompletion completion timeNs).1.toList ++
          ((s.harvestCompletion completion timeNs).2.harvestCompletions completions).1,
        ((s.harvestCompletion completion timeNs).2.harvestCompletions completions).2) := by
  rw [NpuSchedulerState.harvestCompletions]
  split
  · rename_i he
    rw [he]
    rfl
  · rename_i he
    rw [he]
    rfl

/-- The cores without a completion keep their bindings. -/
theorem coreBinding_harvestCompletions {completions : List (CoreCompletion × UInt64)} {s : NpuSchedulerState W}
    {coreSlot : Nat} (h : ∀ c ∈ completions, c.1.coreSlot.toNat ≠ coreSlot) :
    (s.harvestCompletions completions).2.coreBinding[coreSlot]? = s.coreBinding[coreSlot]? := by
  induction completions generalizing s with
  | nil => rfl
  | cons c completions ih =>
      rw [harvestCompletions_cons]
      refine (ih fun c' hc' => h c' (List.mem_cons_of_mem _ hc')).trans ?_
      exact (harvestCompletion_frame s c.1 c.2).1 coreSlot (h c List.mem_cons_self)

theorem Consistent.harvestCompletions (h : s.Consistent) (completions : List (CoreCompletion × UInt64)) :
    (s.harvestCompletions completions).2.Consistent := by
  induction completions generalizing s with
  | nil => exact h
  | cons c completions ih =>
      obtain ⟨completion, timeNs⟩ := c
      rw [harvestCompletions_cons]
      exact ih (h.harvestCompletion completion timeNs)

theorem getElem?_erase_eq_none {m : TaskMap} {k id : RknpuQueueTaskId} (h : m[id]? = none) :
    (m.erase k)[id]? = none := by
  by_cases hk : k = id
  · subst hk
    exact Std.ExtTreeMap.getElem?_erase_self
  · rw [Std.ExtTreeMap.getElem?_erase_of_ne hk, h]

theorem Consistent.wakeTask (h : s.Consistent) (prepareError : Bool) (taskId : RknpuQueueTaskId) :
    (s.wakeTask prepareError taskId).2.Consistent := by
  have hmark : (if prepareError then
      { s with complete := s.complete.modify taskId ({ · with lastError := some .memoryError }) }
      else s).Consistent := by
    split
    · exact h.of_complete fun _ hn => Std.ExtTreeMap.getElem?_modify_eq_none_iff.mpr hn
    · exact h
  unfold NpuSchedulerState.wakeTask
  dsimp only
  split
  · exact hmark
  · exact hmark.of_complete fun _ hn => getElem?_erase_eq_none hn

theorem Consistent.wakeTerminalTasks (h : s.Consistent) (prepareError : Bool) (taskIds : List RknpuQueueTaskId) :
    (s.wakeTerminalTasks prepareError taskIds).2.Consistent := by
  induction taskIds generalizing s with
  | nil => exact h
  | cons id taskIds ih => exact ih (h.wakeTask prepareError id)

/-- `abort_wait` on a submit that is not complete, before the submit is filed anew. -/
def interrupt (s : NpuSchedulerState W) (taskId : RknpuQueueTaskId) : NpuSchedulerState W :=
  { s with
    waiters := s.waiters.erase taskId
    tasks := s.tasks.modify taskId ({ · with lastError := some .interrupted }) }

/-- `abort_wait` forgets a complete submit, or records the error and files the submit anew. -/
theorem abortWait_cases (s : NpuSchedulerState W) (taskId : RknpuQueueTaskId) :
    s.abortWait taskId = { s with waiters := s.waiters.erase taskId, complete := s.complete.erase taskId } ∨
    ∃ complete : TaskMap,
      (∀ id : RknpuQueueTaskId,
        ((s.interrupt taskId).reclassifyTask taskId).2.complete[id]? = none → complete[id]? = none) ∧
      s.abortWait taskId = { ((s.interrupt taskId).reclassifyTask taskId).2 with complete } := by
  unfold abortWait
  dsimp only
  split
  · exact .inl rfl
  · refine .inr ?_
    split
    · rename_i he
      rw [interrupt, he]
      exact ⟨_, fun _ hn => hn, rfl⟩
    · rename_i he
      rw [interrupt, he]
      exact ⟨_, fun _ hn => getElem?_erase_eq_none hn, rfl⟩

theorem Consistent.abortWait (h : s.Consistent) (taskId : RknpuQueueTaskId) : (s.abortWait taskId).Consistent := by
  rcases abortWait_cases s taskId with he | ⟨complete, hcomplete, he⟩
  · rw [he]
    exact h.of_complete fun _ hn => getElem?_erase_eq_none hn
  · rw [he]
    have hfiled : ((s.interrupt taskId).reclassifyTask taskId).2.Consistent :=
      h.update_reclassify (fun _ hid => Std.ExtTreeMap.getElem?_modify_of_ne (Ne.symm hid))
        Std.ExtTreeMap.getElem?_modify_eq_none_iff.mpr
    exact hfiled.of_complete hcomplete

theorem abortWait_coreBinding (s : NpuSchedulerState W) (taskId : RknpuQueueTaskId) :
    (s.abortWait taskId).coreBinding = s.coreBinding := by
  rcases abortWait_cases s taskId with he | ⟨complete, _, he⟩
  · rw [he]
  · rw [he]
    exact (reclassifyTask_frame _ taskId).1

theorem Consistent.takeTerminalSubmit (h : s.Consistent) (taskId : RknpuQueueTaskId) :
    (s.takeTerminalSubmit taskId).2.Consistent := by
  unfold NpuSchedulerState.takeTerminalSubmit
  split
  · exact h
  · exact h.of_complete fun _ hn => getElem?_erase_eq_none hn

end NpuSchedulerState

end Rknpu.Service
