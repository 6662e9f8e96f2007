import Rknpu.Queue.Lemmas.CleanRun
import Rknpu.Service.Lemmas.Waiters
import Rknpu.Service.Theorems.Progress

/-!
# Static and dynamic scheduling agree

On a layout that the dynamic check accepts, a run without faults leaves the same task array and the same
header in both modes, whatever the order of dispatches and completions and whatever else is scheduled.
-/

namespace Rknpu.Service

open Queue

variable {W : Type}

/-! ## One run -/

/-- The submit has nothing in flight and nothing to dispatch. -/
def Sys.Quiescent (y : Sys W) (taskId : RknpuQueueTaskId) : Prop :=
  y.state.boundCores taskId = [] ∧ ∀ t ∈ y.state.tasks[taskId]?, t.hasDispatchableTask = false

instance (y : Sys W) (taskId : RknpuQueueTaskId) : Decidable (y.Quiescent taskId) := by
  unfold Sys.Quiescent
  infer_instance

/-- The terminal record of the submit, in `complete` or taken by the ioctl. -/
def Sys.Ended (y : Sys W) (taskId : RknpuQueueTaskId) (t : RknpuQueueTask) : Prop :=
  y.state.complete[taskId]? = some t ∨ .submit taskId (.taken t) ∈ y.hist

/-- A partitioned submit that met no fault and came to rest is terminal; what it dispatched, its task array
and its reply do not depend on the run. -/
theorem Sys.ended_of_run {y : Sys W} {acts : List (Act W)} (hrun : (scheduler W).run acts = some y) (hfit : y.IdsFit)
    {taskId : RknpuQueueTaskId} {queued : RknpuQueuedSubmit} {timeNs : UInt64}
    (he : .enqueued taskId queued timeNs ∈ y.hist) (hlen : queued.tasks.length = queued.submitMeta.taskTotal.toNat)
    (hpos : queued.submitMeta.taskTotal.toNat ≠ 0) (hp : queued.submitMeta.Partitions)
    (hcores : queued.submitMeta.allowedCores ≠ []) {s : Nat → UInt32}
    (hs : ∀ (i : Nat) (d : RknpuTask), queued.tasks[i]? = some d → s i &&& d.intMask ≠ 0)
    (hclean : Clean s (eventsOf taskId y.hist)) (hq : y.Quiescent taskId) :
    ∃ t, y.Ended taskId t ∧ t.tasks = completedTasks s queued.tasks ∧ t.buildSubmit = queued.completedReply ∧
      (indices (launchedSlots (eventsOf taskId y.hist))).Perm (List.range queued.submitMeta.taskTotal.toNat) ∧
      (queued.submitMeta.usesDynamicTasks = false →
        ∀ l, laneTasks l (launchedSlots (eventsOf taskId y.hist)) = queued.submitMeta.laneRanges[l].indices) := by
  have hinv := Sys.inv_of_run hrun hfit
  obtain ⟨hfits, ℓ, hreach, hagree⟩ := hinv.lives _ _ _ he
  have hlife := hreach.inv hfits
  have hcleanInv := hreach.clean hfits hp.drainsFirst hclean hs
  have hidle := hagree.inflight_eq_nil hq.1
  -- A live submit at rest would have a task to dispatch.
  have hne : ℓ.place ≠ .live := by
    intro hlive
    have hdisp := hlife.hasDispatchableTask hfits hlive hcleanInv.error hidle hpos (hp.supplied hcores) fun _ => hp
    rw [hq.2 ℓ.task (by rw [hagree.tasks, if_pos hlive]; rfl)] at hdisp
    cases hdisp
  have hlaunch : reservedSlots (eventsOf taskId y.hist) = launchedSlots (eventsOf taskId y.hist) := by
    have hboth := reservedSlots_eq_launchedSlots hrun hclean.failedSlots_eq_nil
    rwa [hinv.pendingSlots_eq_nil (hagree.tasks.trans (if_neg hne)), List.append_nil] at hboth
  obtain ⟨hres, hharv⟩ := hlife.finished hp hne hcleanInv.error
  refine ⟨ℓ.task, ?_, ?_, hlife.buildSubmit_eq hp hne hcleanInv.error, by rwa [← hlaunch], ?_⟩
  · cases hplace : ℓ.place with
    | live => exact (hne hplace).elim
    | complete => exact .inl (hagree.complete.trans (if_pos hplace))
    | gone =>
        have hno := hclean.aborted
        have hdropped := (Sys.waited_of_run hrun hfit).dropped taskId (mt mem_eventsOf.mpr hno)
        exact .inr (mem_eventsOf.mp (hreach.taken hno (mt mem_eventsOf.mp hdropped) hplace))
  · refine hcleanInv.tasks_eq hlife.length hidle fun i hi => hharv.mem_iff.mpr ?_
    rw [List.mem_range, ← hlen]
    exact hi
  · intro hstatic l
    rw [← hlaunch]
    exact ((hlife.static hstatic).finished hp hne hcleanInv.error hclean.failedSlots_eq_nil l).1

/-! ## Both modes -/

/-- The header with the dynamic flag cleared. -/
def clearDynamic (submit : RknpuSubmit) : RknpuSubmit :=
  { submit with flags := submit.flags &&& ~~~rknpuJobDynamicTasks }

theorem usesDynamicTasks_clearDynamic (submit : RknpuSubmit) (taskTotal : UInt32) :
    (SubmitMeta.fromSubmit (clearDynamic submit) taskTotal).usesDynamicTasks = false := by
  refine bne_eq_false_iff_eq.mpr ?_
  change submit.flags &&& ~~~rknpuJobDynamicTasks &&& rknpuJobDynamicTasks = 0
  rw [UInt32.and_assoc, show ~~~rknpuJobDynamicTasks &&& rknpuJobDynamicTasks = 0 by decide]
  exact UInt32.and_zero

/-- A submit with an accepted dynamic layout, and the same submit in static mode: in any two runs without
faults that bring them to rest, both are terminal, every task was dispatched once, the lanes of the static
one ran in order, and the task arrays and headers are the same up to the flag. -/
theorem modes_agree {acts acts' : List (Act W)} {y y' : Sys W} (hrun : (scheduler W).run acts = some y)
    (hrun' : (scheduler W).run acts' = some y') (hfit : y.IdsFit) (hfit' : y'.IdsFit) {submit : RknpuSubmit}
    {tasks : List RknpuTask} (hd : submit.flags &&& rknpuJobDynamicTasks ≠ 0)
    (hvalid : SubmitMeta.dynamicLayoutIsValid submit = true) (hlen : tasks.length = submit.taskNumber.toNat)
    {taskId taskId' : RknpuQueueTaskId} {t0Ns t0Ns' timeNs timeNs' : UInt64}
    (he : .enqueued taskId (queuedSubmit submit tasks t0Ns) timeNs ∈ y.hist)
    (he' : .enqueued taskId' (queuedSubmit (clearDynamic submit) tasks t0Ns') timeNs' ∈ y'.hist)
    {s : Nat → UInt32} (hs : ∀ (i : Nat) (d : RknpuTask), tasks[i]? = some d → s i &&& d.intMask ≠ 0)
    (hclean : Clean s (eventsOf taskId y.hist)) (hclean' : Clean s (eventsOf taskId' y'.hist))
    (hq : y.Quiescent taskId) (hq' : y'.Quiescent taskId') :
    ∃ t t', y.Ended taskId t ∧ y'.Ended taskId' t' ∧
      (indices (launchedSlots (eventsOf taskId y.hist))).Perm (List.range submit.taskNumber.toNat) ∧
      (indices (launchedSlots (eventsOf taskId' y'.hist))).Perm (List.range submit.taskNumber.toNat) ∧
      (∀ l, (laneTasks l (launchedSlots (eventsOf taskId' y'.hist))).Pairwise (· < ·)) ∧
      t.tasks = t'.tasks ∧ clearDynamic t.buildSubmit = t'.buildSubmit := by
  obtain ⟨hmask, hpos, hlanes⟩ := dynamicLayoutIsValid_cases hd hvalid
  have htotal : UInt32.ofNat tasks.length = submit.taskNumber := by rw [hlen, UInt32.ofNat_toNat]
  have hlen' : tasks.length = (UInt32.ofNat tasks.length).toNat := by rw [htotal, hlen]
  have hpos' : (UInt32.ofNat tasks.length).toNat ≠ 0 := by
    rw [htotal]
    exact fun hzero => hpos (UInt32.toNat_inj.mp hzero)
  obtain ⟨t, hend, htasks, hreply, hlaunch, _⟩ := Sys.ended_of_run hrun hfit he hlen' hpos'
    (partitions_of_consecutive hlanes htotal hpos) (SubmitMeta.allowedCores_ne_nil hmask) hs hclean hq
  obtain ⟨t', hend', htasks', hreply', hlaunch', hordered⟩ := Sys.ended_of_run hrun' hfit' he' hlen' hpos'
    (partitions_of_consecutive hlanes htotal hpos)
    (SubmitMeta.allowedCores_ne_nil hmask) hs hclean' hq'
  rw [← htotal]
  refine ⟨t, t', hend, hend', hlaunch, hlaunch', ?_, htasks.trans htasks'.symm, ?_⟩
  · intro l
    rw [hordered (usesDynamicTasks_clearDynamic submit _) l]
    exact List.pairwise_lt_range'
  · rw [hreply, hreply']
    rfl

/-- The static counterpart of `dynamicRun`, up to the reply. -/
def staticRun : List (Act Unit) :=
  [.enqueue (clearDynamic dynamicPair) [plainTask, plainTask] 0 () 0, .decide, .launch 0, .decide, .launch 0,
    .harvest bothDone, .wake false, .take 1]

theorem modes_agree_pair : ∃ y y' : Sys Unit,
    (scheduler Unit).run (dynamicRun ++ [.harvest bothDone]) = some y ∧
    (scheduler Unit).run staticRun = some y' ∧ ∃ t t', y.Ended 1 t ∧ y'.Ended 1 t' ∧
      t.tasks = t'.tasks ∧ clearDynamic t.buildSubmit = t'.buildSubmit := by
  obtain ⟨y, hrun, h⟩ : ∃ y : Sys Unit, (scheduler Unit).run (dynamicRun ++ [.harvest bothDone]) = some y ∧
      decide (y.IdsFit ∧ .enqueued 1 (queuedSubmit dynamicPair [plainTask, plainTask] 0) 0 ∈ y.hist ∧
        Clean (fun _ => 1) (eventsOf 1 y.hist) ∧ y.Quiescent 1) = true :=
    (Option.any_eq_true _ _).mp (by decide +kernel)
  obtain ⟨y', hrun', h'⟩ : ∃ y : Sys Unit, (scheduler Unit).run staticRun = some y ∧
      decide (y.IdsFit ∧
        .enqueued 1 (queuedSubmit (clearDynamic dynamicPair) [plainTask, plainTask] 0) 0 ∈ y.hist ∧
        Clean (fun _ => 1) (eventsOf 1 y.hist) ∧ y.Quiescent 1) = true :=
    (Option.any_eq_true _ _).mp (by decide +kernel)
  obtain ⟨hfit, he, hclean, hq⟩ := of_decide_eq_true h
  obtain ⟨hfit', he', hclean', hq'⟩ := of_decide_eq_true h'
  have hs : ∀ (i : Nat) (d : RknpuTask), [plainTask, plainTask][i]? = some d → (1 : UInt32) &&& d.intMask ≠ 0 := by
    intro i d hd
    obtain rfl : d = plainTask := by simpa using List.mem_of_getElem? hd
    decide
  obtain ⟨t, t', hend, hend', _, _, _, hsame⟩ :=
    modes_agree hrun hrun' hfit hfit' (by decide) (by decide) rfl he he' hs hclean hclean' hq hq'
  exact ⟨y, y', hrun, hrun', t, t', hend, hend', hsame⟩

/-- After a wrap of the id counter a run without faults brings the submit to rest and no task of it was
dispatched. -/
theorem modes_undispatched_on_wrap : SubmitMeta.dynamicLayoutIsValid dynamicPair = true ∧
    dynamicPair.flags &&& rknpuJobDynamicTasks ≠ 0 ∧
    ∃ acts, ∃ y : Sys Unit, (scheduler Unit).run acts = some y ∧ ∃ before after,
      y.hist = before ++ .enqueued 1 (queuedSubmit dynamicPair [plainTask, plainTask] 0) 0 :: after ∧
      Clean (fun _ => 1) (eventsOf 1 after) ∧ y.Quiescent 1 ∧ launchedSlots (eventsOf 1 after) = [] := by
  obtain ⟨acts, y, hrun, before, after, hhist, hevs, hidle, htasks, _⟩ := exists_stale_terminal
  refine ⟨by decide, by decide, acts, y, hrun, before, after, hhist, ?_, ⟨hidle, ?_⟩, ?_⟩
  · rw [hevs]
    decide
  · rw [htasks]
    exact nofun
  · rw [hevs]
    rfl

end Rknpu.Service
