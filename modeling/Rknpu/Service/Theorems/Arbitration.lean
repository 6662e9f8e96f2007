import Rknpu.Service.Lemmas.Rounds
import Rknpu.Service.Theorems.Completion

/-!
# The dispatch policy

What a locked decision should do, said without its loops: the lowest idle core with a candidate, and on it the first
candidate by priority and position. The trace of the decision names the queue it came from and the best priority that
waited in Ready.
-/

namespace Rknpu.Service

open Queue

variable {W : Type}

namespace NpuSchedulerState

variable {s : NpuSchedulerState W} {buckets : Buckets} {coreSlot : Nat} {taskId : RknpuQueueTaskId} {t : RknpuQueueTask}

/-! ## The policy -/

/-- The submit is live, allowed on the core and has a task to dispatch. -/
structure Eligible (s : NpuSchedulerState W) (coreSlot : Nat) (taskId : RknpuQueueTaskId) (t : RknpuQueueTask) : Prop where
  live : s.tasks[taskId]? = some t
  allows : t.allowsCore coreSlot = true
  dispatchable : t.hasDispatchableTask = true

/-- Some submit of the queues could take a task on the core. -/
def HasCandidate (s : NpuSchedulerState W) (buckets : Buckets) (coreSlot : Nat) : Prop :=
  ∃ taskId t, buckets.Holds taskId ∧ s.Eligible coreSlot taskId t

/-- The lowest idle core with a candidate. -/
structure LowestCore (s : NpuSchedulerState W) (buckets : Buckets) (coreSlot : Nat) : Prop where
  idle : coreSlot ∈ s.idleCores
  candidate : s.HasCandidate buckets coreSlot
  lowest : ∀ c ∈ s.idleCores, c < coreSlot → ¬ s.HasCandidate buckets c

/-- The first submit of the queues, by priority and then by position, among those eligible on the core. -/
structure FirstEligible (s : NpuSchedulerState W) (buckets : Buckets) (coreSlot : Nat) (taskId : RknpuQueueTaskId)
    (t : RknpuQueueTask) : Prop where
  eligible : s.Eligible coreSlot taskId t
  position : ∃ before after, buckets[t.submitMeta.priority]? = some (before ++ taskId :: after) ∧
    ∀ id ∈ before, ∀ t', ¬ s.Eligible coreSlot id t'
  priority : ∀ id t', buckets.Holds id → s.Eligible coreSlot id t' → t.submitMeta.priority ≤ t'.submitMeta.priority

/-- The least priority of the Ready submits that are eligible on an idle core, or the mark for none. -/
def BestReady (s : NpuSchedulerState W) (priority : Int32) : Prop :=
  ((∃ c ∈ s.idleCores, ∃ taskId t, s.ready.Holds taskId ∧ s.Eligible c taskId t ∧ t.submitMeta.priority = priority) ∧
    ∀ c ∈ s.idleCores, ∀ taskId t, s.ready.Holds taskId → s.Eligible c taskId t → priority ≤ t.submitMeta.priority) ∨
  (priority = rknpuScheduleTraceNoPriority ∧ ∀ c ∈ s.idleCores, ¬ s.HasCandidate s.ready c)

/-- A task of the submit goes to the core. -/
structure Dispatches (s : NpuSchedulerState W) (setup : DispatchSetup) (t : RknpuQueueTask) (s' : NpuSchedulerState W) :
    Prop where
  next : t.nextDispatchableTask = some (setup.binding.laneSlot, setup.binding.taskIndex)
  binding : s'.coreBinding = s.coreBinding.insert setup.coreSlot setup.binding

inductive Policy (s : NpuSchedulerState W) : Option DispatchSetup × NpuSchedulerState W → Prop where
  | running {setup : DispatchSetup} {t : RknpuQueueTask} {s' : NpuSchedulerState W} :
      s.LowestCore s.running setup.coreSlot → s.FirstEligible s.running setup.coreSlot setup.binding.taskId t →
      s.Dispatches setup t s' → setup.dispatchSource = .running → s.BestReady setup.readyPriority →
      Policy s (some setup, s')
  | ready {setup : DispatchSetup} {t : RknpuQueueTask} {s' : NpuSchedulerState W} :
      (∀ c ∈ s.idleCores, ¬ s.HasCandidate s.running c) →
      s.LowestCore s.ready setup.coreSlot → s.FirstEligible s.ready setup.coreSlot setup.binding.taskId t →
      s.Dispatches setup t s' → setup.dispatchSource = .ready → setup.readyPriority = t.submitMeta.priority →
      Policy s (some setup, s')
  | nothing :
      (∀ c ∈ s.idleCores, ¬ s.HasCandidate s.running c ∧ ¬ s.HasCandidate s.ready c) → Policy s (none, s)

/-! ## The searches -/

theorem eligible_iff : s.canDispatch coreSlot taskId = true ↔ ∃ t, s.Eligible coreSlot taskId t := by
  rw [canDispatch_eq_true_iff]
  constructor
  · rintro ⟨t, ht, hallow, l, i, hnext⟩
    exact ⟨t, ht, hallow, Option.isSome_iff_exists.mpr ⟨_, hnext⟩⟩
  · rintro ⟨t, ht, hallow, hdisp⟩
    obtain ⟨⟨l, i⟩, hnext⟩ := Option.isSome_iff_exists.mp hdisp
    exact ⟨t, ht, hallow, l, i, hnext⟩

theorem firstWhere_eq_none_iff_candidate :
    buckets.firstWhere (s.canDispatch coreSlot) = none ↔ ¬ s.HasCandidate buckets coreSlot := by
  rw [PrioBuckets.firstWhere_eq_none_iff]
  constructor
  · rintro h ⟨id, t, ⟨p, hmem⟩, heligible⟩
    have hcan := eligible_iff.mpr ⟨t, heligible⟩
    rw [h p id hmem] at hcan
    cases hcan
  · intro h p id hmem
    by_contra hcan
    obtain ⟨t, heligible⟩ := eligible_iff.mp (by simpa using hcan)
    exact h ⟨id, t, ⟨p, hmem⟩, heligible⟩

/-- Queues in which every id stands at the priority of its own record. -/
def Sorted (s : NpuSchedulerState W) (buckets : Buckets) : Prop :=
  ∀ p id, buckets.MemAt p id → ∃ t, s.tasks[id]? = some t ∧ t.submitMeta.priority = p

theorem Consistent.sorted_ready (h : s.Consistent) : s.Sorted s.ready := by
  intro p id hmem
  obtain ⟨t, ht, hp, -⟩ := (h.filed id).ready p hmem
  exact ⟨t, ht, hp⟩

theorem Consistent.sorted_running (h : s.Consistent) : s.Sorted s.running := by
  intro p id hmem
  obtain ⟨t, ht, hp, -⟩ := ((h.filed id).running p).mp hmem
  exact ⟨t, ht, hp⟩

/-- No eligible submit of the queues has a smaller priority than the one found. -/
theorem Sorted.le_of_firstWhere (h : s.Sorted buckets) {priority : Int32}
    (hfirst : buckets.firstWhere (s.canDispatch coreSlot) = some (priority, taskId)) {id : RknpuQueueTaskId}
    {t' : RknpuQueueTask} (hholds : buckets.Holds id) (heligible : s.Eligible coreSlot id t') :
    priority ≤ t'.submitMeta.priority := by
  obtain ⟨p, hmem⟩ := hholds
  obtain ⟨t₀, ht₀, hp⟩ := h p id hmem
  cases heligible.live.symm.trans ht₀
  rcases PrioBuckets.firstWhere_min hfirst hmem (eligible_iff.mpr ⟨t', heligible⟩) with he | hlt
  · rw [hp, he]
    exact Int32.le_refl _
  · rw [hp]
    exact Int32.le_of_lt (Std.compare_eq_lt.mp hlt)

theorem Sorted.firstEligible (h : s.Sorted buckets) {priority : Int32} {binding : CoreRunBinding}
    {taskDesc : RknpuTask} (hcand : Candidate s buckets coreSlot priority binding t taskDesc) :
    priority = t.submitMeta.priority ∧ s.FirstEligible buckets coreSlot binding.taskId t := by
  have heligible : s.Eligible coreSlot binding.taskId t :=
    ⟨hcand.live, hcand.allows, Option.isSome_iff_exists.mpr ⟨_, hcand.next⟩⟩
  have hpriority : priority = t.submitMeta.priority := by
    obtain ⟨t₀, ht₀, hp⟩ := h _ _ (PrioBuckets.firstWhere_memAt hcand.first).1
    cases hcand.live.symm.trans ht₀
    exact hp.symm
  subst hpriority
  refine ⟨rfl, heligible, ?_, fun id t' hholds => h.le_of_firstWhere hcand.first hholds⟩
  obtain ⟨queue, hqueue, hfind⟩ := PrioBuckets.firstWhere_queue hcand.first
  obtain ⟨-, before, after, rfl, hbefore⟩ := List.find?_eq_some_iff_append.mp hfind
  refine ⟨before, after, hqueue, fun id hid t' heligible' => ?_⟩
  have hno := hbefore id hid
  rw [eligible_iff.mpr ⟨t', heligible'⟩] at hno
  cases hno

theorem lowestCore {priority : Int32} {binding : CoreRunBinding} {taskDesc : RknpuTask}
    (hidle : coreSlot ∈ s.idleCores) (hcand : Candidate s buckets coreSlot priority binding t taskDesc)
    (hlow : ∀ c ∈ s.idleCores, c < coreSlot → buckets.firstWhere (s.canDispatch c) = none) :
    s.LowestCore buckets coreSlot where
  idle := hidle
  candidate :=
    ⟨binding.taskId, t, ⟨priority, (PrioBuckets.firstWhere_memAt hcand.first).1⟩, hcand.live, hcand.allows,
      Option.isSome_iff_exists.mpr ⟨_, hcand.next⟩⟩
  lowest c hc hlt := firstWhere_eq_none_iff_candidate.mp (hlow c hc hlt)

/-! ## The priority in the trace -/

theorem bestReadyPriorityForCore_eq :
    s.bestReadyPriorityForCore coreSlot = (s.ready.firstWhere (s.canDispatch coreSlot)).map Prod.fst :=
  PrioBuckets.findSome?_any_eq s.ready (s.canDispatch coreSlot)

theorem Sorted.bestReady (h : s.Sorted s.ready) :
    s.BestReady ((s.bestReadyPriorityForAny s.idleCores).getD rknpuScheduleTraceNoPriority) := by
  cases hbest : s.bestReadyPriorityForAny s.idleCores with
  | none =>
      refine .inr ⟨rfl, fun c hc => firstWhere_eq_none_iff_candidate.mp ?_⟩
      have hempty := List.filterMap_eq_nil_iff.mp (List.min?_eq_none_iff.mp hbest) c hc
      rwa [bestReadyPriorityForCore_eq, Option.map_eq_none_iff] at hempty
  | some priority =>
      obtain ⟨hmem, hleast⟩ := List.min?_eq_some_iff.mp hbest
      refine .inl ⟨?_, fun c hc id t hholds heligible => ?_⟩
      · obtain ⟨c, hc, hcore⟩ := List.mem_filterMap.mp hmem
        rw [bestReadyPriorityForCore_eq] at hcore
        obtain ⟨⟨p, id⟩, hfirst, hp⟩ := Option.map_eq_some_iff.mp hcore
        obtain ⟨hmemAt, hcan⟩ := PrioBuckets.firstWhere_memAt hfirst
        obtain ⟨t, heligible⟩ := eligible_iff.mp hcan
        obtain ⟨t₀, ht₀, hp₀⟩ := h p id hmemAt
        cases heligible.live.symm.trans ht₀
        exact ⟨c, hc, id, t, ⟨p, hmemAt⟩, heligible, hp₀.trans hp⟩
      · cases hfirst : s.ready.firstWhere (s.canDispatch c) with
        | none => exact (firstWhere_eq_none_iff_candidate.mp hfirst ⟨id, t, hholds, heligible⟩).elim
        | some first =>
            have hcore : first.1 ∈ s.idleCores.filterMap s.bestReadyPriorityForCore := by
              refine List.mem_filterMap.mpr ⟨c, hc, ?_⟩
              rw [bestReadyPriorityForCore_eq, hfirst]
              rfl
            exact Int32.le_trans (hleast _ hcore) (h.le_of_firstWhere hfirst hholds heligible)

/-! ## The decision -/

theorem Consistent.policy (h : s.Consistent) : s.Policy s.dispatchDecision := by
  have hdec := dispatchDecision_decided h.readyWF
  generalize s.dispatchDecision = r at hdec
  cases hdec with
  | nothing hno =>
      exact .nothing fun c hc =>
        ⟨firstWhere_eq_none_iff_candidate.mp (hno c hc).1, firstWhere_eq_none_iff_candidate.mp (hno c hc).2⟩
  | continued hidle hlow hcand =>
      obtain ⟨-, hfirst⟩ := h.sorted_running.firstEligible hcand
      exact .running (lowestCore hidle hcand hlow) hfirst ⟨hcand.next, rfl⟩ rfl h.sorted_ready.bestReady
  | promoted hidle hnone hlow hcand =>
      obtain ⟨hpriority, hfirst⟩ := h.sorted_ready.firstEligible hcand
      refine .ready (fun c hc => firstWhere_eq_none_iff_candidate.mp (hnone c hc)) (lowestCore hidle hcand hlow) hfirst
        ⟨hcand.next, rfl⟩ rfl ?_
      change (s.bestReadyPriorityForCore _).getD _ = _
      rw [bestReadyPriorityForCore_eq, hcand.first]
      exact hpriority

end NpuSchedulerState

/-- Every decision follows the policy, as long as no id is handed out twice. -/
theorem decision_follows_policy {acts : List (Act W)} {y : Sys W} (hrun : (scheduler W).run acts = some y)
    (hfit : y.IdsFit) : y.state.Policy y.state.dispatchDecision :=
  (Sys.inv_of_run hrun hfit).queues.policy

/-- A submit with two lanes runs on one core while another one waits. -/
def competingRun : List (Act Unit) :=
  [.enqueue (twoLanes 2 ⟨0, 1⟩ ⟨1, 1⟩) [plainTask, plainTask] 0 () 0,
    .enqueue { twoLanes 1 ⟨0, 1⟩ ⟨0, 0⟩ with priority := 3 } [plainTask] 0 () 0,
    .decide, .launch 0]

theorem decision_follows_policy_competing : ∃ y : Sys Unit, (scheduler Unit).run competingRun = some y ∧
    (y.state.dispatchDecision.1.any fun setup => setup.dispatchSource == .running && setup.readyPriority == 3) = true ∧
    y.state.Policy y.state.dispatchDecision := by
  obtain ⟨y, hrun, h⟩ : ∃ y : Sys Unit, (scheduler Unit).run competingRun = some y ∧
      decide (y.IdsFit ∧ (y.state.dispatchDecision.1.any fun setup =>
        setup.dispatchSource == .running && setup.readyPriority == 3) = true) = true :=
    (Option.any_eq_true _ _).mp (by decide +kernel)
  obtain ⟨hfit, hrunning⟩ := of_decide_eq_true h
  exact ⟨y, hrun, hrunning, decision_follows_policy hrun hfit⟩

/-- When the id of a waiting submit of priority 5 is given to a submit of priority 9, the decision promotes the new one
from the old entry and writes 5 to the trace. -/
theorem decision_breaks_policy_on_wrap : ∃ acts, ∃ y : Sys Unit, (scheduler Unit).run acts = some y ∧
    ¬ y.state.Policy y.state.dispatchDecision := by
  obtain ⟨acts, pre, z, hrun, hdec, htask⟩ := exists_wrapped_run
    [.enqueue { twoLanes 1 ⟨0, 1⟩ ⟨0, 0⟩ with priority := 5 } [plainTask] 0 () 0]
    [.enqueue { twoLanes 1 ⟨0, 1⟩ ⟨0, 0⟩ with priority := 9 } [plainTask] 0 () 0]
    (p := fun z => (z.state.dispatchDecision.1.any fun setup => decide (setup.dispatchSource = .ready ∧
        setup.readyPriority = 5 ∧ setup.binding.taskId = 1)) = true ∧
      (z.state.tasks[(1 : UInt64)]?.any fun t => decide (t.submitMeta.priority = 9)) = true)
    () (by decide +kernel)
  refine ⟨acts, z.after pre, hrun, fun hpolicy => ?_⟩
  change z.state.Policy z.state.dispatchDecision at hpolicy
  obtain ⟨setup, hsetup, h⟩ := (Option.any_eq_true _ _).mp hdec
  obtain ⟨hsource, hready, hid⟩ := of_decide_eq_true h
  obtain ⟨t, ht, hnine⟩ := (Option.any_eq_true _ _).mp htask
  generalize z.state.dispatchDecision = r at hpolicy hsetup
  cases hpolicy with
  | running _ _ _ hrunning _ =>
      cases hsetup
      rw [hsource] at hrunning
      cases hrunning
  | ready _ _ hfirst _ _ hown =>
      cases hsetup
      rw [hid] at hfirst
      cases ht.symm.trans hfirst.eligible.live
      rw [hready, of_decide_eq_true hnine] at hown
      exact absurd hown (by decide)
  | nothing _ => cases hsetup

end Rknpu.Service
