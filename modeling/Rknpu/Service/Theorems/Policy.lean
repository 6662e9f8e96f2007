import Rknpu.Service.Theorems.Completion

/-!
# Running before Ready

A submit that has been dispatched should be continued before a new one is promoted. The decision looks at
the buckets only, and `reclassify_task` files a dispatched submit under Ready again when its last task in
flight completes. So the policy holds exactly where the order of Ready happens to respect it.
-/

namespace Rknpu.Service

open Queue

variable {W : Type}

/-- The decision taken in this state continues a dispatched submit rather than promote a new one: when it
promotes a submit that was never dispatched, the core is not open to a dispatched one that can go on. -/
def Sys.ContinuesFirst (y : Sys W) : Prop :=
  ∀ setup s', y.state.dispatchDecision = (some setup, s') → setup.dispatchSource = .ready →
    launchedSlots (eventsOf setup.binding.taskId y.hist) = [] →
    ∀ taskId t, taskId ≠ setup.binding.taskId → y.state.tasks[taskId]? = some t → t.lastError = none →
      launchedSlots (eventsOf taskId y.hist) ≠ [] → t.hasDispatchableTask = true →
      t.allowsCore setup.coreSlot = false

/-- The submit is live, and a task of it has completed. -/
def NpuSchedulerState.started (s : NpuSchedulerState W) (taskId : RknpuQueueTaskId) : Bool :=
  s.tasks[taskId]?.any fun t => t.completedTaskCount != 0

/-- With no Running candidate, take the lowest idle core that has a Ready candidate. If one of its Ready
candidates has started, the first one has. -/
def NpuSchedulerState.StartedFirst (s : NpuSchedulerState W) : Prop :=
  s.hasRunningCandidateForAny s.idleCores = false →
    ∀ coreSlot ∈ s.idleCores, (∀ c ∈ s.idleCores, c < coreSlot → s.ready.firstWhere (s.canDispatch c) = none) →
      ∀ first, s.ready.firstWhere (s.canDispatch coreSlot) = some first →
        ∀ p taskId, s.ready.MemAt p taskId → s.canDispatch coreSlot taskId = true →
          s.started taskId = true → s.started first.2 = true

/-- Between decisions, a Ready submit that can go on has started exactly if it was dispatched. -/
theorem started_iff {acts : List (Act W)} {y : Sys W} (hrun : (scheduler W).run acts = some y) (hinv : y.Inv)
    (hw : y.worker = .free) {taskId : RknpuQueueTaskId} {p : Int32} (hready : y.state.ready.MemAt p taskId)
    {coreSlot : Nat} (hcan : y.state.canDispatch coreSlot taskId = true) :
    y.state.started taskId = true ↔ launchedSlots (eventsOf taskId y.hist) ≠ [] := by
  obtain ⟨t, ht, _, l, i, hnext⟩ := NpuSchedulerState.canDispatch_eq_true_iff.mp hcan
  obtain ⟨t', ht', _, hidle⟩ := (hinv.queues.filed taskId).ready p hready
  cases ht.symm.trans ht'
  obtain ⟨queued, timeNs, fl, _, hfits, hreach, _⟩ := hinv.life ht
  have hlife := hreach.inv hfits
  have hfl : fl = [] := by
    by_contra hne
    rw [(hlife.hasRunningTasks_iff rfl).mpr hne] at hidle
    cases hidle
  have hfail : failedSlots (eventsOf taskId y.hist) = [] := by
    by_contra hne
    exact hlife.failed hne (RknpuQueueTask.lastError_of_nextDispatchableTask hnext)
  have hlaunch : reservedSlots (eventsOf taskId y.hist) = launchedSlots (eventsOf taskId y.hist) := by
    simpa [hw, pendingSlots] using reservedSlots_eq_launchedSlots hrun hfail
  rw [← hlaunch, ← hlife.completedTaskCount_ne_zero_iff hfits rfl hfl (Option.isSome_iff_exists.mpr ⟨_, hnext⟩)]
  simp [NpuSchedulerState.started, ht]

/-- A live submit that can go on is a candidate of Ready, unless Running has one. -/
theorem NpuSchedulerState.Consistent.memAt_ready {s : NpuSchedulerState W} (h : s.Consistent) {coreSlot : Nat}
    (hrunning : s.running.firstWhere (s.canDispatch coreSlot) = none) {taskId : RknpuQueueTaskId} {t : RknpuQueueTask}
    (ht : s.tasks[taskId]? = some t) (hcan : s.canDispatch coreSlot taskId = true) :
    s.ready.MemAt t.submitMeta.priority taskId := by
  obtain ⟨t', ht', _, l, i, hnext⟩ := NpuSchedulerState.canDispatch_eq_true_iff.mp hcan
  cases ht.symm.trans ht'
  refine (h.filed taskId).queued t ht ?_ (Option.isSome_iff_exists.mpr ⟨_, hnext⟩)
  by_contra hrun
  have hmem := ((h.filed taskId).running t.submitMeta.priority).mpr ⟨t, ht, rfl, by simpa using hrun⟩
  rw [PrioBuckets.firstWhere_eq_none_iff.mp hrunning _ _ hmem] at hcan
  cases hcan

theorem continuesFirst_iff {acts : List (Act W)} {y : Sys W} (hrun : (scheduler W).run acts = some y) (hinv : y.Inv)
    (hw : y.worker = .free) : y.ContinuesFirst ↔ y.state.StartedFirst := by
  have hdec := NpuSchedulerState.dispatchDecision_decided hinv.queues.readyWF
  constructor
  · intro hcontinues hnone coreSlot hidle hlow first hfirst p taskId hmem hcan hstarted
    have hrunning := NpuSchedulerState.hasRunningCandidateForAny_eq_false_iff.mp hnone
    generalize hr : y.state.dispatchDecision = r at hdec
    cases hdec with
    | nothing hno =>
        rw [(hno coreSlot hidle).2] at hfirst
        cases hfirst
    | continued hidle' _ hcand =>
        have := hcand.first
        rw [hrunning _ hidle'] at this
        cases this
    | @promoted coreSlot' priority binding task taskDesc hidle' _ hlow' hcand =>
        -- The decision is about the same core and its first candidate.
        have hcore : coreSlot' = coreSlot := by
          rcases Nat.lt_trichotomy coreSlot' coreSlot with hlt | heq | hgt
          · have := hcand.first
            rw [hlow _ hidle' hlt] at this
            cases this
          · exact heq
          · rw [hlow' _ hidle hgt] at hfirst
            cases hfirst
        subst hcore
        cases hfirst.symm.trans hcand.first
        obtain ⟨hmem₀, hcan₀⟩ := PrioBuckets.firstWhere_memAt hfirst
        by_contra hfresh
        have hnever : launchedSlots (eventsOf binding.taskId y.hist) = [] := by
          by_contra hne
          exact hfresh ((started_iff hrun hinv hw hmem₀ hcan₀).mpr hne)
        obtain ⟨t, ht, hallow, l, i, hnext⟩ := NpuSchedulerState.canDispatch_eq_true_iff.mp hcan
        have hrefused := hcontinues _ _ hr rfl hnever taskId t (fun heq => hfresh (heq ▸ hstarted)) ht
          (RknpuQueueTask.lastError_of_nextDispatchableTask hnext)
          ((started_iff hrun hinv hw hmem hcan).mp hstarted) (Option.isSome_iff_exists.mpr ⟨_, hnext⟩)
        exact Bool.false_ne_true (hrefused.symm.trans hallow)
  · intro hfirst setup s' hr hsource hnever taskId t _ ht herr hlaunched hdisp
    rw [hr] at hdec
    cases hdec with
    | continued _ _ _ => cases hsource
    | @promoted coreSlot _ binding _ _ hidle hrunning hlow hcand =>
        by_contra hallow
        rw [Bool.not_eq_false] at hallow
        obtain ⟨⟨l, i⟩, hnext⟩ := Option.isSome_iff_exists.mp hdisp
        have hcan : y.state.canDispatch coreSlot taskId = true :=
          NpuSchedulerState.canDispatch_eq_true_iff.mpr ⟨t, ht, hallow, l, i, hnext⟩
        have hmem := hinv.queues.memAt_ready (hrunning _ hidle) ht hcan
        have hstarted := hfirst (NpuSchedulerState.hasRunningCandidateForAny_eq_false_iff.mpr hrunning) coreSlot hidle
          hlow _ hcand.first _ taskId hmem hcan ((started_iff hrun hinv hw hmem hcan).mpr hlaunched)
        obtain ⟨hmem₀, hcan₀⟩ := PrioBuckets.firstWhere_memAt hcand.first
        exact (started_iff hrun hinv hw hmem₀ hcan₀).mp hstarted hnever

/-- All decisions of a run continue dispatched submits first, exactly if Ready is in that order at each. -/
theorem running_before_ready {acts : List (Act W)} {y : Sys W} (hrun : (scheduler W).run acts = some y)
    (hfit : y.IdsFit) : (∀ y₀, (scheduler W).Takes acts y₀ .decide → y₀.ContinuesFirst) ↔
      ∀ y₀, (scheduler W).Takes acts y₀ .decide → y₀.state.StartedFirst := by
  refine forall_congr' fun y₀ => imp_congr_right fun htakes => ?_
  obtain ⟨before, hbefore⟩ := htakes.run
  obtain ⟨y₁, after, hstep, _⟩ := htakes.step hrun
  have hw : y₀.worker = .free := by
    change (if y₀.worker = .free then some y₀.decide else none) = some y₁ at hstep
    by_contra hno
    rw [if_neg hno] at hstep
    cases hstep
  exact continuesFirst_iff hbefore (Sys.inv_of_run hbefore (Sys.IdsFit.of_takes htakes hrun hfit)) hw

theorem running_before_ready_single : ∃ y : Sys Unit,
    (scheduler Unit).run [.enqueue (twoLanes 2 ⟨0, 1⟩ ⟨1, 1⟩) [plainTask, plainTask] 0 () 0, .decide] = some y ∧
    ∀ y₀, (scheduler Unit).Takes [.enqueue (twoLanes 2 ⟨0, 1⟩ ⟨1, 1⟩) [plainTask, plainTask] 0 () 0, .decide] y₀
      .decide → y₀.ContinuesFirst := by
  obtain ⟨y, hrun, hfit⟩ : ∃ y : Sys Unit,
      (scheduler Unit).run [.enqueue (twoLanes 2 ⟨0, 1⟩ ⟨1, 1⟩) [plainTask, plainTask] 0 () 0, .decide] = some y ∧
      decide y.IdsFit = true := (Option.any_eq_true _ _).mp (by decide +kernel)
  refine ⟨y, hrun, (running_before_ready hrun (of_decide_eq_true hfit)).mpr ?_⟩
  rintro y₀ ⟨before, after, hacts, hbefore⟩ _ _ _ _ _ _ _ taskId _ _ hstarted
  -- The only decision comes after the enqueue, where no submit has started.
  obtain rfl : before = [.enqueue (twoLanes 2 ⟨0, 1⟩ ⟨1, 1⟩) [plainTask, plainTask] 0 () 0] := by
    rcases before with _ | ⟨a, _ | ⟨b, before⟩⟩
    · cases hacts
    · cases hacts
      rfl
    · have := congrArg List.length hacts
      simp at this
  obtain ⟨y₁, hrun₁, hall⟩ : ∃ y : Sys Unit,
      (scheduler Unit).run [.enqueue (twoLanes 2 ⟨0, 1⟩ ⟨1, 1⟩) [plainTask, plainTask] 0 () 0] = some y ∧
      (y.state.tasks.toList.all fun e => e.2.completedTaskCount == 0) = true :=
    (Option.any_eq_true _ _).mp (by decide +kernel)
  cases hbefore.symm.trans hrun₁
  obtain ⟨t, ht, hcount⟩ := (Option.any_eq_true _ _).mp hstarted
  have hzero := List.all_eq_true.mp hall _ (Std.ExtTreeMap.mem_toList_iff_getElem?_eq_some.mpr ht)
  rw [beq_iff_eq] at hzero
  rw [hzero] at hcount
  cases hcount

/-- A submit of low priority with two tasks on core 0 is dispatched. Before its first task completes, a
submit of high priority arrives that needs the same core. -/
def overtakeRun : List (Act Unit) :=
  [.enqueue { twoLanes 2 ⟨0, 2⟩ ⟨0, 0⟩ with priority := 10, coreMask := 1 } [plainTask, plainTask] 0 () 0,
    .decide, .launch 0,
    .enqueue { twoLanes 1 ⟨0, 1⟩ ⟨0, 0⟩ with priority := -10, coreMask := 1 } [plainTask] 0 () 0,
    .harvest [(⟨0, 1, 0⟩, 0)], .wake false]

/-- The next decision promotes the new submit, although the dispatched one has a task left for core 0. -/
theorem promoted_over_started : ∃ y : Sys Unit, (scheduler Unit).run overtakeRun = some y ∧ y.worker = .free ∧
    ∃ setup s', y.state.dispatchDecision = (some setup, s') ∧ setup.dispatchSource = .ready ∧
      setup.binding.taskId = 2 ∧ setup.coreSlot = 0 ∧ launchedSlots (eventsOf 2 y.hist) = [] ∧
      launchedSlots (eventsOf 1 y.hist) ≠ [] ∧ ∃ t, y.state.tasks[(1 : UInt64)]? = some t ∧ t.lastError = none ∧
        t.hasDispatchableTask = true ∧ t.allowsCore 0 = true := by
  obtain ⟨y, hrun, h⟩ : ∃ y : Sys Unit, (scheduler Unit).run overtakeRun = some y ∧
      decide (y.worker = .free ∧ launchedSlots (eventsOf 2 y.hist) = [] ∧ launchedSlots (eventsOf 1 y.hist) ≠ [] ∧
        (y.state.dispatchDecision.1.any fun setup => decide (setup.dispatchSource = .ready ∧
          setup.binding.taskId = 2 ∧ setup.coreSlot = 0)) ∧
        (y.state.tasks[(1 : UInt64)]?.any fun t =>
          t.lastError == none && t.hasDispatchableTask && t.allowsCore 0)) = true :=
    (Option.any_eq_true _ _).mp (by decide +kernel)
  obtain ⟨hw, hnever, hlaunched, hsetup, htask⟩ := of_decide_eq_true h
  obtain ⟨setup, hdec, hready⟩ := (Option.any_eq_true _ _).mp hsetup
  obtain ⟨hsource, hid, hcore⟩ := of_decide_eq_true hready
  obtain ⟨t, ht, hgo⟩ := (Option.any_eq_true _ _).mp htask
  rw [Bool.and_eq_true, Bool.and_eq_true, beq_iff_eq] at hgo
  exact ⟨y, hrun, hw, setup, y.state.dispatchDecision.2, Prod.ext hdec rfl, hsource, hid, hcore, hnever, hlaunched,
    t, ht, hgo.1.1, hgo.1.2, hgo.2⟩

end Rknpu.Service
