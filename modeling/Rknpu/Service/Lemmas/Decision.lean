import Rknpu.Queue.Lemmas.Operations
import Rknpu.Service.State

/-!
# One dispatch decision

`Decided` says what a locked decision can do, without the loops: nothing, a further task of a submit in
Running on the lowest idle core that has such a candidate, or the promotion of the first candidate in
Ready. `dispatchDecision_decided` shows that the code does one of the three.
-/

namespace Rknpu.Service

open Queue

namespace NpuSchedulerState

variable {W : Type} {s : NpuSchedulerState W} {coreSlot : Nat} {taskId : RknpuQueueTaskId}

/-! ## Binding a task -/

/-- The state after a task of a live submit was bound to a core. -/
def reserve (s : NpuSchedulerState W) (coreSlot : Nat) (binding : CoreRunBinding) (task : RknpuQueueTask) :
    NpuSchedulerState W :=
  { s with
    tasks := s.tasks.insert binding.taskId (task.reserveSlot (binding.slot coreSlot))
    coreBinding := s.coreBinding.insert coreSlot binding }

/-- The driver arguments for a task of a submit. -/
def setupFor (coreSlot : Nat) (binding : CoreRunBinding) (task : RknpuQueueTask) (taskDesc : RknpuTask)
    (dispatchSource : DispatchSource) (readyPriority : Int32) : DispatchSetup where
  coreSlot := coreSlot
  binding := binding
  submitFlags := task.submitMeta.hardwareFlags
  taskTotal := UInt32.ofNat task.tasks.length
  taskArrayDmaAddress := task.submitMeta.taskArrayDmaAddress
  task := { taskDesc with intStatus := 0 }
  priority := task.submitMeta.priority
  opIdx := taskDesc.opIdx
  dispatchSource := dispatchSource
  readyPriority := readyPriority

theorem prepareDispatch_eq {binding : CoreRunBinding} {task : RknpuQueueTask}
    (hcore : s.coreBinding.contains coreSlot = false) (htask : s.tasks[binding.taskId]? = some task)
    (hnext : task.nextDispatchableTask = some (binding.laneSlot, binding.taskIndex)) :
    ∃ taskDesc, task.tasks[binding.taskIndex.toNat]? = some taskDesc ∧
      s.prepareDispatch coreSlot binding =
        (some (setupFor coreSlot binding task taskDesc .none rknpuScheduleTraceNoPriority),
          s.reserve coreSlot binding task) := by
  have hlt := RknpuQueueTask.nextDispatchableTask_lt_length hnext
  have hdesc : (task.clearIntStatus binding.taskIndex).tasks[binding.taskIndex.toNat]? =
      some { task.tasks[binding.taskIndex.toNat] with intStatus := 0 } := by
    simp [RknpuQueueTask.clearIntStatus, List.getElem?_eq_getElem hlt]
  have hreserve := @RknpuQueueTask.reserveDispatch_eq_true task (binding.slot coreSlot) hnext
  have hframe := RknpuQueueTask.frame_reserveSlot task (binding.slot coreSlot)
  have hmeta : (task.reserveSlot (binding.slot coreSlot)).submitMeta = task.submitMeta :=
    congrArg (fun f => f.2.1) hframe
  have hlen : (task.reserveSlot (binding.slot coreSlot)).tasks.length = task.tasks.length :=
    congrArg (fun f => f.2.2.2) hframe
  simp only [CoreRunBinding.slot] at hreserve
  refine ⟨_, List.getElem?_eq_getElem hlt, ?_⟩
  simp only [prepareDispatch, hcore, Bool.false_eq_true, ↓reduceIte, htask, hdesc, hreserve]
  rw [setupFor, reserve, ← hmeta, ← hlen]
  rfl

/-! ## Candidates -/

theorem canDispatch_eq_true_iff : s.canDispatch coreSlot taskId = true ↔
    ∃ task, s.tasks[taskId]? = some task ∧ task.allowsCore coreSlot = true ∧
      ∃ l i, task.nextDispatchableTask = some (l, i) := by
  unfold canDispatch
  cases h : s.tasks[taskId]? with
  | none => simp
  | some task =>
      simp only [Bool.and_eq_true, RknpuQueueTask.hasDispatchableTask, Option.isSome_iff_exists,
        Option.some.injEq, exists_eq_left', Prod.exists]

theorem isSome_runningCandidate :
    (s.runningCandidate coreSlot taskId).isSome = s.canDispatch coreSlot taskId := by
  unfold runningCandidate canDispatch
  cases s.tasks[taskId]? with
  | none => rfl
  | some task =>
      cases hallow : task.allowsCore coreSlot with
      | false => simp [hallow]
      | true => simp [hallow, RknpuQueueTask.hasDispatchableTask]

theorem findRunningCandidateForCore_eq :
    s.findRunningCandidateForCore coreSlot =
      (s.running.firstWhere (s.canDispatch coreSlot)).bind fun e => s.runningCandidate coreSlot e.2 := by
  unfold findRunningCandidateForCore
  rw [PrioBuckets.findFirst_eq]
  simp only [isSome_runningCandidate]

/-- The first candidate of a bucket structure for a core, with the task it would run. -/
structure Candidate (s : NpuSchedulerState W) (buckets : Buckets) (coreSlot : Nat) (priority : Int32)
    (binding : CoreRunBinding) (task : RknpuQueueTask) (taskDesc : RknpuTask) : Prop where
  first : buckets.firstWhere (s.canDispatch coreSlot) = some (priority, binding.taskId)
  live : s.tasks[binding.taskId]? = some task
  allows : task.allowsCore coreSlot = true
  next : task.nextDispatchableTask = some (binding.laneSlot, binding.taskIndex)
  desc : task.tasks[binding.taskIndex.toNat]? = some taskDesc

theorem exists_candidate {buckets : Buckets} {priority : Int32}
    (h : buckets.firstWhere (s.canDispatch coreSlot) = some (priority, taskId)) :
    ∃ l i task taskDesc, Candidate s buckets coreSlot priority ⟨taskId, l, i⟩ task taskDesc := by
  obtain ⟨task, htask, hallow, l, i, hnext⟩ :=
    canDispatch_eq_true_iff.mp (PrioBuckets.firstWhere_memAt h).2
  have hlt := RknpuQueueTask.nextDispatchableTask_lt_length hnext
  exact ⟨l, i, task, _, h, htask, hallow, hnext, List.getElem?_eq_getElem hlt⟩

/-! ## The two ways to dispatch on a core -/

section

variable {priority : Int32} {binding : CoreRunBinding} {task : RknpuQueueTask} {taskDesc : RknpuTask}

theorem prepareDispatchFromRunning_none (h : s.running.firstWhere (s.canDispatch coreSlot) = none) :
    s.prepareDispatchFromRunning coreSlot = (none, s) := by
  simp [prepareDispatchFromRunning, findRunningCandidateForCore_eq, h]

theorem prepareDispatchFromRunning_some (hcore : s.coreBinding.contains coreSlot = false)
    (h : Candidate s s.running coreSlot priority binding task taskDesc) :
    s.prepareDispatchFromRunning coreSlot =
      (some (setupFor coreSlot binding task taskDesc .none rknpuScheduleTraceNoPriority),
        s.reserve coreSlot binding task) := by
  obtain ⟨desc, hdesc, heq⟩ := prepareDispatch_eq hcore h.live h.next
  rw [h.desc, Option.some.injEq] at hdesc
  subst hdesc
  have hcand : s.runningCandidate coreSlot binding.taskId = some binding := by
    simp [runningCandidate, h.live, h.allows, h.next]
  simp only [prepareDispatchFromRunning, findRunningCandidateForCore_eq, h.first, Option.bind_some, hcand]
  exact heq

theorem promoteReadyAndPrepareDispatch_none (hwf : s.ready.WF)
    (h : s.ready.firstWhere (s.canDispatch coreSlot) = none) :
    s.promoteReadyAndPrepareDispatch coreSlot = (none, s) := by
  simp [promoteReadyAndPrepareDispatch, popReadyCandidateForCore, PrioBuckets.popFirst_eq hwf, h]

/-- The state in which a submit was moved from Ready to Running. -/
def promote (s : NpuSchedulerState W) (priority : Int32) (taskId : RknpuQueueTaskId) (task : RknpuQueueTask) :
    NpuSchedulerState W :=
  { s with
    ready := PrioBuckets.dropAt taskId s.ready priority
    running := s.running.push task.submitMeta.priority taskId }

theorem promoteReadyAndPrepareDispatch_some (hwf : s.ready.WF)
    (hcore : s.coreBinding.contains coreSlot = false)
    (h : Candidate s s.ready coreSlot priority binding task taskDesc) :
    s.promoteReadyAndPrepareDispatch coreSlot =
      (some (setupFor coreSlot binding task taskDesc .none rknpuScheduleTraceNoPriority),
        (s.promote priority binding.taskId task).reserve coreSlot binding task) := by
  have hcore' : (s.promote priority binding.taskId task).coreBinding.contains coreSlot = false := hcore
  obtain ⟨desc, hdesc, heq⟩ := prepareDispatch_eq hcore' h.live h.next
  rw [h.desc, Option.some.injEq] at hdesc
  subst hdesc
  simp only [promoteReadyAndPrepareDispatch, popReadyCandidateForCore, PrioBuckets.popFirst_eq hwf, h.first,
    h.live, h.next]
  exact heq

end

/-! ## The decision -/

/-- What one locked decision does. -/
inductive Decided (s : NpuSchedulerState W) : Option DispatchSetup × NpuSchedulerState W → Prop where
  | nothing :
      (∀ c ∈ s.idleCores, s.running.firstWhere (s.canDispatch c) = none ∧
        s.ready.firstWhere (s.canDispatch c) = none) →
      Decided s (none, s)
  | continued {coreSlot : Nat} {priority : Int32} {binding : CoreRunBinding} {task : RknpuQueueTask}
      {taskDesc : RknpuTask} :
      coreSlot ∈ s.idleCores →
      (∀ c ∈ s.idleCores, c < coreSlot → s.running.firstWhere (s.canDispatch c) = none) →
      Candidate s s.running coreSlot priority binding task taskDesc →
      Decided s
        (some (setupFor coreSlot binding task taskDesc .running
            ((s.bestReadyPriorityForAny s.idleCores).getD rknpuScheduleTraceNoPriority)),
          s.reserve coreSlot binding task)
  | promoted {coreSlot : Nat} {priority : Int32} {binding : CoreRunBinding} {task : RknpuQueueTask}
      {taskDesc : RknpuTask} :
      coreSlot ∈ s.idleCores →
      (∀ c ∈ s.idleCores, s.running.firstWhere (s.canDispatch c) = none) →
      (∀ c ∈ s.idleCores, c < coreSlot → s.ready.firstWhere (s.canDispatch c) = none) →
      Candidate s s.ready coreSlot priority binding task taskDesc →
      Decided s
        (some (setupFor coreSlot binding task taskDesc .ready
            ((s.bestReadyPriorityForCore coreSlot).getD rknpuScheduleTraceNoPriority)),
          (s.promote priority binding.taskId task).reserve coreSlot binding task)

/-- The chosen task is bound to its core, and its submit is live. -/
theorem Decided.bound {r : Option DispatchSetup × NpuSchedulerState W} (h : Decided s r)
    (setup : DispatchSetup) (hsome : r.1 = some setup) :
    r.2.coreBinding[setup.coreSlot]? = some setup.binding ∧ r.2.tasks[setup.binding.taskId]? ≠ none := by
  cases h with
  | nothing _ => cases hsome
  | continued _ _ _ =>
      cases hsome
      simp [setupFor, reserve]
  | promoted _ _ _ _ =>
      cases hsome
      simp [setupFor, reserve]

theorem mem_idleCores : coreSlot ∈ s.idleCores ↔ coreSlot < npuMaxCores ∧ s.coreBinding[coreSlot]? = none := by
  rw [idleCores, List.mem_filter, List.mem_range, Bool.not_eq_true',
    Std.ExtTreeMap.contains_eq_isSome_getElem?, Option.isSome_eq_false_iff, Option.isNone_iff_eq_none]

/-- The idle cores before a core in the list are exactly the smaller ones. -/
theorem mem_of_lt_of_idleCores_eq {pre post : List Nat} (h : s.idleCores = pre ++ coreSlot :: post) {c : Nat}
    (hc : c ∈ s.idleCores) (hlt : c < coreSlot) : c ∈ pre := by
  have hsorted : s.idleCores.Pairwise (· < ·) := List.pairwise_lt_range.filter _
  rw [h] at hsorted hc
  rcases List.mem_append.mp hc with hpre | hpost
  · exact hpre
  · have hge : ∀ c' ∈ coreSlot :: post, coreSlot ≤ c' := by
      intro c' hc'
      rcases List.mem_cons.mp hc' with rfl | hc'
      · exact le_rfl
      · exact (List.rel_of_pairwise_cons (List.pairwise_append.mp hsorted).2.1 hc').le
    exact absurd hlt (not_lt.mpr (hge c hpost))

theorem contains_eq_false_of_idle (h : coreSlot ∈ s.idleCores) : s.coreBinding.contains coreSlot = false := by
  simpa using (List.mem_filter.mp h).2

theorem hasRunningCandidateForAny_eq_false_iff :
    s.hasRunningCandidateForAny s.idleCores = false ↔
      ∀ c ∈ s.idleCores, s.running.firstWhere (s.canDispatch c) = none := by
  have hnone : ∀ c, s.findRunningCandidateForCore c = none ↔
      s.running.firstWhere (s.canDispatch c) = none := by
    intro c
    rw [findRunningCandidateForCore_eq]
    cases h : s.running.firstWhere (s.canDispatch c) with
    | none => simp
    | some e =>
        have hsome := (PrioBuckets.firstWhere_memAt h).2
        rw [← isSome_runningCandidate, Option.isSome_iff_ne_none] at hsome
        simpa using hsome
  simp [hasRunningCandidateForAny, hnone]

/-- The loop finds the first core with a candidate of the kind it looks for. -/
theorem dispatchLoop_decided (hwf : s.ready.WF) (pre cores : List Nat) (hsplit : s.idleCores = pre ++ cores)
    (hpre : ∀ c ∈ pre, s.running.firstWhere (s.canDispatch c) = none ∧
      (s.hasRunningCandidateForAny s.idleCores = false → s.ready.firstWhere (s.canDispatch c) = none)) :
    Decided s (dispatchLoop (s.hasRunningCandidateForAny s.idleCores)
      ((s.bestReadyPriorityForAny s.idleCores).getD rknpuScheduleTraceNoPriority) cores s) := by
  -- The state does not change until a candidate is found, so the cores passed keep their answers.
  induction cores generalizing pre with
  | nil =>
      rw [List.append_nil] at hsplit
      have hrun : ∀ c ∈ s.idleCores, s.running.firstWhere (s.canDispatch c) = none := by
        intro c hc
        rw [hsplit] at hc
        exact (hpre c hc).1
      refine .nothing fun c hc => ⟨hrun c hc, ?_⟩
      rw [hsplit] at hc
      exact (hpre c hc).2 (hasRunningCandidateForAny_eq_false_iff.mpr hrun)
  | cons coreSlot cores ih =>
      have hidle : coreSlot ∈ s.idleCores := by simp [hsplit]
      have hcore := contains_eq_false_of_idle hidle
      have hstep : s.idleCores = (pre ++ [coreSlot]) ++ cores := by simp [hsplit]
      unfold dispatchLoop
      cases hrun : s.running.firstWhere (s.canDispatch coreSlot) with
      | some e =>
          obtain ⟨l, i, task, taskDesc, hcand⟩ := exists_candidate hrun
          rw [prepareDispatchFromRunning_some hcore hcand]
          refine .continued hidle ?_ hcand
          intro c hc hlt
          exact (hpre c (mem_of_lt_of_idleCores_eq hsplit hc hlt)).1
      | none =>
          rw [prepareDispatchFromRunning_none hrun]
          dsimp only
          split
          · rename_i hany
            refine ih (pre ++ [coreSlot]) hstep ?_
            intro c hc
            rcases List.mem_append.mp hc with hc | hc
            · exact hpre c hc
            · rw [List.mem_singleton.mp hc]
              exact ⟨hrun, fun hno => absurd hany (by simp [hno])⟩
          · rename_i hany
            have hnone := hasRunningCandidateForAny_eq_false_iff.mp (Bool.not_eq_true _ ▸ hany)
            cases hready : s.ready.firstWhere (s.canDispatch coreSlot) with
            | some e =>
                obtain ⟨l, i, task, taskDesc, hcand⟩ := exists_candidate hready
                rw [promoteReadyAndPrepareDispatch_some hwf hcore hcand]
                refine .promoted hidle hnone ?_ hcand
                intro c hc hlt
                exact (hpre c (mem_of_lt_of_idleCores_eq hsplit hc hlt)).2 (Bool.not_eq_true _ ▸ hany)
            | none =>
                rw [promoteReadyAndPrepareDispatch_none hwf hready]
                refine ih (pre ++ [coreSlot]) hstep ?_
                intro c hc
                rcases List.mem_append.mp hc with hc | hc
                · exact hpre c hc
                · rw [List.mem_singleton.mp hc]
                  exact ⟨hrun, fun _ => hready⟩

theorem dispatchDecision_decided (hwf : s.ready.WF) : Decided s s.dispatchDecision := by
  unfold dispatchDecision
  dsimp only
  split
  · rename_i h
    rw [List.isEmpty_iff] at h
    exact .nothing (by simp [h])
  · exact dispatchLoop_decided hwf [] s.idleCores rfl nofun

end NpuSchedulerState

end Rknpu.Service
