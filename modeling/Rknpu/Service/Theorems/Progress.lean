import Rknpu.Queue.Lemmas.Supply
import Rknpu.Service.Ioctl
import Rknpu.Service.Theorems.Bookkeeping

/-!
# Progress of accepted submits

Which live submits can go on, and what a finished dynamic submit has executed.
-/

namespace Rknpu.Service

open Queue

variable {W : Type}

/-! ## No submit is stranded -/

/-- The layout of an accepted header can be carried out: it is dynamic, or the mask admits a core and the
lanes hold as many tasks as the completion target asks for. -/
def CanFinish (submit : RknpuSubmit) : Prop :=
  submit.flags &&& rknpuJobDynamicTasks ≠ 0 ∨ (SubmitMeta.fromSubmit submit submit.taskNumber).Supplied

instance (submit : RknpuSubmit) : Decidable (CanFinish submit) := by
  unfold CanFinish
  infer_instance

theorem Accepted.partitions {submit : RknpuSubmit} {tasks : List RknpuTask} (h : Accepted submit tasks)
    (hd : submit.flags &&& rknpuJobDynamicTasks ≠ 0) :
    (SubmitMeta.fromSubmit submit submit.taskNumber).Partitions := by
  obtain ⟨_, hpos, hlanes⟩ := dynamicLayoutIsValid_cases hd h.dynamicLayoutIsValid
  exact partitions_of_consecutive hlanes rfl hpos

theorem Accepted.supplied {submit : RknpuSubmit} {tasks : List RknpuTask} (h : Accepted submit tasks)
    (hm : CanFinish submit) : (SubmitMeta.fromSubmit submit submit.taskNumber).Supplied := by
  rcases hm with hd | hsupplied
  · obtain ⟨hmask, _, _⟩ := dynamicLayoutIsValid_cases hd h.dynamicLayoutIsValid
    exact (h.partitions hd).supplied (SubmitMeta.allowedCores_ne_nil hmask)
  · exact hsupplied

/-- In every reachable state, a live submit without an error whose layout can be carried out has a task in
flight, or has a task to dispatch and a core that may take it. -/
theorem not_stranded {acts : List (Act W)} {y : Sys W} (hrun : (scheduler W).run acts = some y)
    (hfit : y.IdsFit) {taskId : RknpuQueueTaskId} {submit : RknpuSubmit} {tasks : List RknpuTask}
    {t0Ns timeNs : UInt64} (he : .enqueued taskId (queuedSubmit submit tasks t0Ns) timeNs ∈ y.hist)
    (hok : Accepted submit tasks) (hm : CanFinish submit) {t : RknpuQueueTask}
    (ht : y.state.tasks[taskId]? = some t) (herr : t.lastError = none) :
    y.state.boundCores taskId ≠ [] ∨
      t.hasDispatchableTask = true ∧ ∃ coreSlot < npuMaxCores, t.allowsCore coreSlot = true := by
  have hinv := Sys.inv_of_run hrun hfit
  obtain ⟨queued, _, fl, he', hfits, hreach, hagree⟩ := hinv.life ht
  obtain ⟨rfl, _⟩ := hinv.enqueued_unique he he'
  have hlife := hreach.inv hfits
  have hmeta : (queuedSubmit submit tasks t0Ns).submitMeta =
      SubmitMeta.fromSubmit submit submit.taskNumber := by rw [← hok.taskTotal]; rfl
  have hrecord : t.submitMeta = SubmitMeta.fromSubmit submit submit.taskNumber := hlife.submitMeta.trans hmeta
  by_cases hidle : fl = []
  · right
    constructor
    · refine hlife.hasDispatchableTask hfits rfl herr hidle ?_ (by rw [hmeta]; exact hok.supplied hm) ?_
      · rw [hmeta]
        exact fun hzero => hok.taskNumber_ne_zero (UInt32.toNat_inj.mp hzero)
      · intro hd
        rw [hmeta] at hd ⊢
        exact hok.partitions (bne_iff_ne.mp hd)
    · obtain ⟨coreSlot, hcore⟩ := List.exists_mem_of_ne_nil _ (hok.supplied hm).1
      rw [← hrecord] at hcore
      exact ⟨coreSlot, mem_allowedCores.mp hcore⟩
  · left
    exact fun hnone => hidle (hagree.inflight_eq_nil hnone)

theorem not_stranded_split : ∃ y : Sys Unit,
    (scheduler Unit).run [.enqueue (twoLanes 2 ⟨0, 1⟩ ⟨1, 1⟩) [plainTask, plainTask] 0 () 0] = some y ∧
    ∃ t, y.state.tasks[(1 : UInt64)]? = some t ∧ (y.state.boundCores 1 ≠ [] ∨
      t.hasDispatchableTask = true ∧ ∃ coreSlot < npuMaxCores, t.allowsCore coreSlot = true) := by
  obtain ⟨y, hrun, h⟩ : ∃ y : Sys Unit,
      (scheduler Unit).run [.enqueue (twoLanes 2 ⟨0, 1⟩ ⟨1, 1⟩) [plainTask, plainTask] 0 () 0] = some y ∧
      decide (y.IdsFit ∧
        .enqueued 1 (queuedSubmit (twoLanes 2 ⟨0, 1⟩ ⟨1, 1⟩) [plainTask, plainTask] 0) 0 ∈ y.hist ∧
        y.state.tasks[(1 : UInt64)]?.any fun t => t.lastError == none) = true :=
    (Option.any_eq_true _ _).mp (by decide +kernel)
  obtain ⟨hfit, he, hany⟩ := of_decide_eq_true h
  obtain ⟨t, ht, herr⟩ := (Option.any_eq_true _ _).mp hany
  exact ⟨y, hrun, t, ht, not_stranded hrun hfit he ⟨rfl, rfl⟩ (by decide) ht (beq_iff_eq.mp herr)⟩

/-- The second lane starts beyond the task array. The target counts its task, no dispatch reaches it. -/
def beyondRun : List (Act Unit) :=
  [.enqueue (twoLanes 2 ⟨0, 1⟩ ⟨5, 1⟩) [plainTask, plainTask] 0 () 0, .decide, .launch 0,
    .harvest [(⟨0, 1, 0⟩, 0)], .wake false]

/-- The mask names only a core that does not exist. -/
def noCoreRun : List (Act Unit) :=
  [.enqueue { twoLanes 1 ⟨0, 1⟩ ⟨0, 0⟩ with coreMask := 8 } [plainTask] 0 () 0]

/-- Both headers are accepted, and both submits are live and cannot go on. -/
theorem stranded_static :
    (Accepted (twoLanes 2 ⟨0, 1⟩ ⟨5, 1⟩) [plainTask, plainTask] ∧
      ∃ y : Sys Unit, (scheduler Unit).run beyondRun = some y ∧ ∃ t, y.state.tasks[(1 : UInt64)]? = some t ∧
        t.lastError = none ∧ y.state.boundCores 1 = [] ∧ t.hasDispatchableTask = false) ∧
    (Accepted { twoLanes 1 ⟨0, 1⟩ ⟨0, 0⟩ with coreMask := 8 } [plainTask] ∧
      ∃ y : Sys Unit, (scheduler Unit).run noCoreRun = some y ∧ ∃ t, y.state.tasks[(1 : UInt64)]? = some t ∧
        t.lastError = none ∧ y.state.boundCores 1 = [] ∧
        ∀ coreSlot < npuMaxCores, t.allowsCore coreSlot = false) := by
  constructor
  · obtain ⟨y, hrun, h⟩ : ∃ y : Sys Unit, (scheduler Unit).run beyondRun = some y ∧
        decide (y.state.boundCores 1 = [] ∧ y.state.tasks[(1 : UInt64)]?.any fun t =>
          t.lastError == none && !t.hasDispatchableTask) = true :=
      (Option.any_eq_true _ _).mp (by decide +kernel)
    obtain ⟨hbound, hany⟩ := of_decide_eq_true h
    obtain ⟨t, ht, hstuck⟩ := (Option.any_eq_true _ _).mp hany
    rw [Bool.and_eq_true, beq_iff_eq, Bool.not_eq_true'] at hstuck
    exact ⟨⟨rfl, rfl⟩, y, hrun, t, ht, hstuck.1, hbound, hstuck.2⟩
  · obtain ⟨y, hrun, h⟩ : ∃ y : Sys Unit, (scheduler Unit).run noCoreRun = some y ∧
        decide (y.state.boundCores 1 = [] ∧ y.state.tasks[(1 : UInt64)]?.any fun t =>
          t.lastError == none && decide (∀ coreSlot < npuMaxCores, t.allowsCore coreSlot = false)) = true :=
      (Option.any_eq_true _ _).mp (by decide +kernel)
    obtain ⟨hbound, hany⟩ := of_decide_eq_true h
    obtain ⟨t, ht, hstuck⟩ := (Option.any_eq_true _ _).mp hany
    rw [Bool.and_eq_true, beq_iff_eq, decide_eq_true_eq] at hstuck
    exact ⟨⟨rfl, rfl⟩, y, hrun, t, ht, hstuck.1, hbound, hstuck.2⟩

/-! ## Dynamic submits execute every task once -/

/-- Tasks of a dynamic submit are reserved in increasing order, and a dynamic submit that is terminal
without an error had every task dispatched once and completed once. -/
theorem dynamic_exactly_once {acts : List (Act W)} {y : Sys W} (hrun : (scheduler W).run acts = some y)
    (hfit : y.IdsFit) {taskId : RknpuQueueTaskId} {submit : RknpuSubmit} {tasks : List RknpuTask}
    {t0Ns timeNs : UInt64} (he : .enqueued taskId (queuedSubmit submit tasks t0Ns) timeNs ∈ y.hist)
    (hok : Accepted submit tasks) (hd : submit.flags &&& rknpuJobDynamicTasks ≠ 0) :
    (indices (reservedSlots (eventsOf taskId y.hist))).Pairwise (· < ·) ∧
    (∀ i ∈ indices (reservedSlots (eventsOf taskId y.hist)), i < submit.taskNumber.toNat) ∧
    ∀ t, y.state.complete[taskId]? = some t → t.lastError = none →
      (∀ i < submit.taskNumber.toNat, (indices (launchedSlots (eventsOf taskId y.hist))).count i = 1 ∧
        (indices (harvestedSlots (eventsOf taskId y.hist))).count i = 1) ∧
      t.buildSubmit.taskCounter = submit.taskNumber := by
  have hinv := Sys.inv_of_run hrun hfit
  obtain ⟨hfits, ℓ, hreach, hagree⟩ := hinv.lives _ _ _ he
  have hmeta : (queuedSubmit submit tasks t0Ns).submitMeta =
      SubmitMeta.fromSubmit submit submit.taskNumber := by rw [← hok.taskTotal]; rfl
  have hmode : (queuedSubmit submit tasks t0Ns).submitMeta.usesDynamicTasks = true := by
    rw [hmeta]
    exact bne_iff_ne.mpr hd
  have hlife := hreach.inv hfits
  have hdyn := hlife.dynamic hmode
  rw [hmeta] at hdyn
  have hres := hdyn.reserved
  refine ⟨?_, ?_, ?_⟩
  · rw [indices, hres]
    exact List.pairwise_lt_range
  · intro i hi
    rw [indices, hres, List.mem_range] at hi
    exact lt_of_lt_of_le hi hdyn.next_le
  · intro t ht herr
    obtain ⟨hplace, rfl⟩ := hagree.done ht
    have hne : ℓ.place ≠ .live := by
      rw [hplace]
      exact nofun
    have hnofail : failedSlots (eventsOf taskId y.hist) = [] := by
      by_contra hfail
      exact hlife.failed hfail herr
    obtain ⟨hall, hperm⟩ := hdyn.finished hne herr hnofail
    have hgone : y.state.tasks[taskId]? = none := hagree.tasks.trans (if_neg hne)
    have hlaunch := reservedSlots_eq_launchedSlots hrun hnofail
    rw [hinv.pendingSlots_eq_nil hgone, List.append_nil] at hlaunch
    have hrange : (indices (reservedSlots (eventsOf taskId y.hist))).Perm (List.range submit.taskNumber.toNat) := by
      rw [indices, hall]
      rfl
    refine ⟨fun i hi => ⟨?_, ?_⟩, ?_⟩
    · rw [← hlaunch]
      exact count_indices_eq_one hrange hi
    · exact count_indices_eq_one ((hperm.map _).symm.trans hrange) hi
    · have hdone := hdyn.done hne herr
      have hrecord : ℓ.task.submitMeta = SubmitMeta.fromSubmit submit submit.taskNumber := hlife.submitMeta.trans hmeta
      have hmode' : ℓ.task.submitMeta.usesDynamicTasks = true := hlife.submitMeta ▸ hmode
      have htotal : ℓ.task.submitMeta.taskTotal = submit.taskNumber := by rw [hrecord]; rfl
      simp only [RknpuQueueTask.buildSubmit, RknpuQueueTask.completedTaskCount, hmode', ↓reduceIte]
      rw [← UInt32.toNat_inj, UInt32.toNat_min, hdone, htotal]
      exact min_self _

/-- Cores 0 and 1 complete, core 1 first. -/
def bothDone : List (CoreCompletion × UInt64) := [(⟨1, 1, 0⟩, 0), (⟨0, 1, 0⟩, 0)]

theorem dynamic_exactly_once_pair : ∃ y : Sys Unit,
    (scheduler Unit).run (dynamicRun ++ [.harvest bothDone]) = some y ∧
    ∃ t, y.state.complete[(1 : UInt64)]? = some t ∧
      (∀ i < 2, (indices (launchedSlots (eventsOf 1 y.hist))).count i = 1 ∧
        (indices (harvestedSlots (eventsOf 1 y.hist))).count i = 1) ∧ t.buildSubmit.taskCounter = 2 := by
  obtain ⟨y, hrun, h⟩ : ∃ y : Sys Unit,
      (scheduler Unit).run (dynamicRun ++ [.harvest bothDone]) = some y ∧
      decide (y.IdsFit ∧ .enqueued 1 (queuedSubmit dynamicPair [plainTask, plainTask] 0) 0 ∈ y.hist ∧
        y.state.complete[(1 : UInt64)]?.any fun t => t.lastError == none) = true :=
    (Option.any_eq_true _ _).mp (by decide +kernel)
  obtain ⟨hfit, he, hany⟩ := of_decide_eq_true h
  obtain ⟨t, ht, herr⟩ := (Option.any_eq_true _ _).mp hany
  obtain ⟨_, _, hdone⟩ := dynamic_exactly_once hrun hfit he ⟨rfl, rfl⟩ (by decide)
  exact ⟨y, hrun, t, ht, hdone t ht (beq_iff_eq.mp herr)⟩

/-- The completions of the first submit are counted for a second one with its id. -/
theorem exists_stale_terminal : ∃ acts, ∃ y : Sys Unit, (scheduler Unit).run acts = some y ∧ ∃ before after,
    y.hist = before ++ .enqueued 1 (queuedSubmit dynamicPair [plainTask, plainTask] 0) 0 :: after ∧
    eventsOf 1 after = [.harvested ⟨1, 1, 1⟩ 1 0, .harvested ⟨0, 0, 0⟩ 1 0] ∧
    y.state.boundCores 1 = [] ∧ y.state.tasks[(1 : UInt64)]? = none ∧
    ∃ t, y.state.complete[(1 : UInt64)]? = some t ∧ t.lastError = none := by
  obtain ⟨acts, pre, z, hrun, hhead, hevs, hidle, htasks, hany⟩ := exists_wrapped_run
    dynamicRun [.enqueue dynamicPair [plainTask, plainTask] 0 () 0, .harvest bothDone]
    (p := fun z => z.hist.head? = some (.enqueued 1 (queuedSubmit dynamicPair [plainTask, plainTask] 0) 0) ∧
      eventsOf 1 z.hist.tail = [.harvested ⟨1, 1, 1⟩ 1 0, .harvested ⟨0, 0, 0⟩ 1 0] ∧
      z.state.boundCores 1 = [] ∧ z.state.tasks[(1 : UInt64)]? = none ∧
      z.state.complete[(1 : UInt64)]?.any fun t => t.lastError == none)
    () (by decide +kernel)
  obtain ⟨t, ht, herr⟩ := (Option.any_eq_true _ _).mp hany
  refine ⟨acts, z.after pre, hrun, pre, z.hist.tail, ?_, hevs, hidle, htasks, t, ht, beq_iff_eq.mp herr⟩
  exact congrArg (pre ++ ·) (List.cons_head?_tail hhead).symm

/-- After a wrap of the id counter a dynamic submit is terminal before any task of it was reserved. -/
theorem dynamic_unexecuted_on_wrap : Accepted dynamicPair [plainTask, plainTask] ∧
    ∃ acts, ∃ y : Sys Unit, (scheduler Unit).run acts = some y ∧ ∃ before after,
      y.hist = before ++ .enqueued 1 (queuedSubmit dynamicPair [plainTask, plainTask] 0) 0 :: after ∧
      reservedSlots (eventsOf 1 after) = [] ∧
      ∃ t, y.state.complete[(1 : UInt64)]? = some t ∧ t.lastError = none := by
  obtain ⟨acts, y, hrun, before, after, hhist, hevs, _, _, hdone⟩ := exists_stale_terminal
  refine ⟨⟨rfl, rfl⟩, acts, y, hrun, before, after, hhist, ?_, hdone⟩
  rw [hevs]
  rfl

end Rknpu.Service
