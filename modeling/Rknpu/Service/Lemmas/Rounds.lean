import Rknpu.Service.Lemmas.Clients

/-!
# Interrupted submits

A submit that is enqueued and interrupted before anything of it is dispatched leaves no trace, except that
its id is used up. So any number of such rounds leads back to the same scheduler state, and after enough of
them the 64-bit ids come round.
-/

namespace Rknpu.Service

open Queue

variable {W : Type}

/-! ## One round -/

/-- The scheduler does not know the id. -/
structure NpuSchedulerState.Unknown (s : NpuSchedulerState W) (taskId : RknpuQueueTaskId) : Prop where
  tasks : s.tasks[taskId]? = none
  complete : s.complete[taskId]? = none
  waiters : s.waiters[taskId]? = none

theorem abortWait_enqueueSubmit {s : NpuSchedulerState W} {taskId : RknpuQueueTaskId} (hs : s.Consistent)
    (hstarted : s.workerStarted = true) (hunknown : s.Unknown taskId) (queued : RknpuQueuedSubmit) (waiter : W)
    (timeNs : UInt64) : (s.enqueueSubmit taskId queued waiter timeNs).2.2.abortWait taskId = s := by
  have hready : ∀ p, ¬ s.ready.MemAt p taskId := fun p => (hs.not_memAt_of_absent hunknown.tasks p).1
  have hrunning : ∀ p, ¬ s.running.MemAt p taskId := fun p => (hs.not_memAt_of_absent hunknown.tasks p).2
  -- The record is terminal at once: it carries an error and nothing of it runs.
  have hterm : RknpuQueueTask.isTerminal
      { (RknpuQueueTask.new taskId queued).markEnqueued timeNs with lastError := some .interrupted } = true := by
    rw [RknpuQueueTask.isTerminal_of_error (Option.some_ne_none _)]
    exact congrArg (!·) (RknpuQueueTask.hasRunningTasks_new taskId queued timeNs)
  unfold NpuSchedulerState.abortWait
  dsimp only
  rw [if_neg (by simp [Std.ExtTreeMap.contains_eq_isSome_getElem?, NpuSchedulerState.enqueueSubmit,
    NpuSchedulerState.enqueueTask, hunknown.complete])]
  generalize hs₁ : ({ (s.enqueueSubmit taskId queued waiter timeNs).2.2 with
    waiters := (s.enqueueSubmit taskId queued waiter timeNs).2.2.waiters.erase taskId
    tasks := (s.enqueueSubmit taskId queued waiter timeNs).2.2.tasks.modify taskId
      ({ · with lastError := some .interrupted }) } : NpuSchedulerState W) = s₁
  have ht : s₁.tasks[taskId]? =
      some { (RknpuQueueTask.new taskId queued).markEnqueued timeNs with lastError := some .interrupted } := by
    rw [← hs₁]
    simp [NpuSchedulerState.enqueueSubmit, NpuSchedulerState.enqueueTask]
  rcases s₁.reclassifyTask_cases taskId with ⟨hnone, _⟩ | ⟨t, ht', ⟨_, he⟩ | ⟨hno, _⟩ | ⟨hno, _⟩ | ⟨hno, _⟩⟩
  · rw [ht] at hnone
    cases hnone
  · rw [he, ← hs₁]
    obtain ⟨tasks, ready, running, coreBinding, complete, waiters, workerStarted⟩ := s
    simp only at hstarted hready hrunning
    subst hstarted
    simp only [NpuSchedulerState.mk.injEq, NpuSchedulerState.unfile, NpuSchedulerState.enqueueSubmit,
      NpuSchedulerState.enqueueTask, and_true, true_and]
    refine ⟨?_, PrioBuckets.remove_push hs.readyWF hready _, PrioBuckets.remove_eq_self hs.runningWF hrunning,
      Std.ExtTreeMap.erase_insert_of_fresh _ hunknown.complete, Std.ExtTreeMap.erase_insert_of_fresh _ hunknown.waiters⟩
    rw [Std.ExtTreeMap.erase_modify_same, Std.ExtTreeMap.erase_modify_same]
    exact Std.ExtTreeMap.erase_insert_of_fresh _ hunknown.tasks
  all_goals
    cases ht.symm.trans ht'
    rw [hterm] at hno
    cases hno

/-! ## Many rounds -/

/-- Submits that are interrupted at once, starting with this id. -/
def interruptedRounds (submit : RknpuSubmit) (waiter : W) : RknpuQueueTaskId → Nat → List (Act W)
  | _, 0 => []
  | taskId, n + 1 =>
      .enqueue submit [] 0 waiter 0 :: .abort taskId :: interruptedRounds submit waiter (taskId + 1) n

theorem runFrom_interruptedRounds (submit : RknpuSubmit) (waiter : W) (n : Nat) {y : Sys W}
    (hs : y.state.Consistent) (hstarted : y.state.workerStarted = true)
    (hunknown : ∀ k < n, y.state.Unknown (y.nextQueueTaskId + UInt64.ofNat k)) :
    ∃ y', (scheduler W).runFrom y (interruptedRounds submit waiter y.nextQueueTaskId n) = some y' ∧
      y'.state = y.state ∧ y'.worker = y.worker ∧ y'.nextQueueTaskId = y.nextQueueTaskId + UInt64.ofNat n := by
  induction n generalizing y with
  | zero => exact ⟨y, rfl, rfl, rfl, (UInt64.add_zero _).symm⟩
  | succ n ih =>
      have hstate : ((y.enqueue (queuedSubmit submit [] 0) waiter 0).abort y.nextQueueTaskId).state = y.state := by
        have h := hunknown 0 n.succ_pos
        rw [show UInt64.ofNat 0 = 0 from rfl, UInt64.add_zero] at h
        exact abortWait_enqueueSubmit hs hstarted h _ waiter 0
      have hnext : ((y.enqueue (queuedSubmit submit [] 0) waiter 0).abort y.nextQueueTaskId).nextQueueTaskId =
          y.nextQueueTaskId + 1 := rfl
      have hworker : ((y.enqueue (queuedSubmit submit [] 0) waiter 0).abort y.nextQueueTaskId).worker =
          y.worker := rfl
      have hshift : ∀ k, y.nextQueueTaskId + 1 + UInt64.ofNat k = y.nextQueueTaskId + UInt64.ofNat (k + 1) := by
        intro k
        rw [UInt64.add_assoc, UInt64.add_comm 1, UInt64.ofNat_add]
        rfl
      generalize hy₁ : (y.enqueue (queuedSubmit submit [] 0) waiter 0).abort y.nextQueueTaskId = y₁ at hstate hnext hworker
      obtain ⟨y', hrun, hstate', hworker', hnext'⟩ := ih (y := y₁) (by rw [hstate]; exact hs)
        (by rw [hstate]; exact hstarted) (by
          intro k hk
          rw [hstate, hnext, hshift]
          exact hunknown (k + 1) (by omega))
      refine ⟨y', ?_, hstate'.trans hstate, hworker'.trans hworker, ?_⟩
      · rw [hnext] at hrun
        rw [← hrun, ← hy₁]
        rfl
      · rw [hnext', hnext, hshift]

/-- A state that knows the first submit only. -/
def Sys.OnlyFirst (y : Sys W) : Prop :=
  y.nextQueueTaskId = 2 ∧ y.state.workerStarted = true ∧ y.state.tasks.keys ⊆ [1] ∧
    y.state.complete.keys ⊆ [1] ∧ y.state.waiters.keys ⊆ [1]

instance (y : Sys W) : Decidable y.OnlyFirst := by
  unfold Sys.OnlyFirst
  infer_instance

theorem Sys.OnlyFirst.unknown {y : Sys W} (h : y.OnlyFirst) {taskId : RknpuQueueTaskId} (hne : taskId ≠ 1) :
    y.state.Unknown taskId := by
  obtain ⟨_, _, htasks, hcomplete, hwaiters⟩ := h
  refine ⟨Std.ExtTreeMap.getElem?_eq_none fun hmem => hne ?_, Std.ExtTreeMap.getElem?_eq_none fun hmem => hne ?_,
    Std.ExtTreeMap.getElem?_eq_none fun hmem => hne ?_⟩
  · exact List.mem_singleton.mp (htasks (Std.ExtTreeMap.mem_keys.mpr hmem))
  · exact List.mem_singleton.mp (hcomplete (Std.ExtTreeMap.mem_keys.mpr hmem))
  · exact List.mem_singleton.mp (hwaiters (Std.ExtTreeMap.mem_keys.mpr hmem))

/-! ## The history does not matter -/

/-- The same state with an older history before it. -/
def Sys.after (y : Sys W) (pre : List Event) : Sys W := { y with hist := pre ++ y.hist }

theorem Sys.step_after (y : Sys W) (pre : List Event) (a : Act W) :
    (y.after pre).step a = (y.step a).map (·.after pre) := by
  have happend : ∀ evs, pre ++ y.hist ++ evs = pre ++ (y.hist ++ evs) := List.append_assoc pre y.hist
  have hworker : (y.after pre).worker = y.worker := rfl
  cases a with
  | enqueue submit tasks t0Ns waiter timeNs => exact congrArg some (by simp only [enqueue, after, happend])
  | decide =>
      have hdecide : (y.after pre).decide = y.decide.after pre := by
        unfold Sys.decide Sys.after
        dsimp only
        split
        · rfl
        · simp only [happend]
      simp only [step, hworker, hdecide]
      split <;> rfl
  | launch timeNs =>
      simp only [step, after]
      split
      · exact congrArg some (by simp only [launch, happend])
      · rfl
  | fail err =>
      simp only [step, after]
      split
      · exact congrArg some (by simp only [fail, List.append_assoc])
      · rfl
  | harvest completions =>
      have hharvest : (y.after pre).harvest completions = (y.harvest completions).after pre := by
        simp only [harvest, after, happend]
      simp only [step, hworker, hharvest]
      split <;> rfl
  | wake deviceError =>
      simp only [step, after]
      split
      · exact congrArg some (by simp only [wake, happend])
      · rfl
  | abort taskId =>
      refine congrArg some ?_
      unfold Sys.after Sys.abort
      simp only [List.append_assoc]
  | take taskId => exact congrArg some (by simp only [take, after, happend])

theorem Sys.runFrom_after (y : Sys W) (pre : List Event) (acts : List (Act W)) :
    (scheduler W).runFrom (y.after pre) acts = ((scheduler W).runFrom y acts).map (·.after pre) := by
  induction acts generalizing y with
  | nil => rfl
  | cons a acts ih =>
      change ((y.after pre).step a).bind _ = ((y.step a).bind _).map _
      rw [y.step_after pre a]
      cases y.step a with
      | none => rfl
      | some y' => exact ih y'

/-! ## The ids come round -/

/-- The state as it comes back when the ids have come round, without its history. -/
def Sys.wrapped (y : Sys W) : Sys W := { y with nextQueueTaskId := 1, hist := [] }

theorem Sys.OnlyFirst.unknown_of_lt {y : Sys W} (h : y.OnlyFirst) {k : Nat} (hk : k < 2 ^ 64 - 1) :
    y.state.Unknown (y.nextQueueTaskId + UInt64.ofNat k) := by
  refine h.unknown ?_
  rw [h.1, ne_eq, ← UInt64.toNat_inj, UInt64.toNat_add, UInt64.toNat_ofNat']
  change ¬ (2 + k % 2 ^ 64) % 2 ^ 64 = 1
  omega

/-- The scheduler state that has come back to where it was, with the first id to be handed out next. -/
theorem Sys.eq_wrapped_after {y y' : Sys W} (h : y.OnlyFirst) (hstate : y'.state = y.state)
    (hworker : y'.worker = y.worker) (hnext : y'.nextQueueTaskId = y.nextQueueTaskId + UInt64.ofNat (2 ^ 64 - 1)) :
    y' = y.wrapped.after y'.hist := by
  have hone : y'.nextQueueTaskId = 1 := by
    rw [hnext, h.1]
    rfl
  unfold Sys.after Sys.wrapped
  rw [← hstate, ← hworker, ← hone, List.append_nil]

/-- With `2 ^ 64 - 1` rounds the id of the first submit comes up again. -/
theorem exists_wrapped {acts : List (Act W)} {y : Sys W} (hrun : (scheduler W).run acts = some y)
    (hfit : y.IdsFit) (h : y.OnlyFirst) (waiter : W) :
    ∃ acts' pre, (scheduler W).run acts' = some (y.wrapped.after pre) := by
  -- The number of rounds stays a variable, so that no list of this length is ever unfolded.
  obtain ⟨n, hn⟩ : ∃ n, n = 2 ^ 64 - 1 := ⟨_, rfl⟩
  obtain ⟨y', hrounds, hstate, hworker, hnext⟩ := runFrom_interruptedRounds .default waiter n
    (Sys.inv_of_run hrun hfit).queues h.2.1 fun k hk => h.unknown_of_lt (hn ▸ hk)
  rw [hn] at hnext
  exact ⟨_, y'.hist, (Machine.run_append hrun hrounds).trans (congrArg some (Sys.eq_wrapped_after h hstate hworker hnext))⟩

/-- A run that starts with the first submit and goes on after the ids have come round, checked by evaluation. -/
theorem exists_wrapped_run (acts later : List (Act W)) {p : Sys W → Prop} [DecidablePred p] (waiter : W)
    (h : (((scheduler W).run acts).any fun y => decide (y.IdsFit ∧ y.OnlyFirst) &&
      ((scheduler W).runFrom y.wrapped later).any fun z => decide (p z)) = true) :
    ∃ acts' pre z, (scheduler W).run acts' = some (z.after pre) ∧ p z := by
  obtain ⟨y, hrun, hy⟩ := (Option.any_eq_true _ _).mp h
  rw [Bool.and_eq_true, decide_eq_true_eq] at hy
  obtain ⟨z, hz, hp⟩ := (Option.any_eq_true _ _).mp hy.2
  obtain ⟨acts', pre, hrun'⟩ := exists_wrapped hrun hy.1.1 hy.1.2 waiter
  refine ⟨acts' ++ later, pre, z, Machine.run_append hrun' ?_, of_decide_eq_true hp⟩
  rw [y.wrapped.runFrom_after pre later, hz]
  rfl

/-! ## The same for calls -/

namespace Clients

def after (c : Clients) (pre : List Event) : Clients := { c with sys := c.sys.after pre }

theorem step_after (c : Clients) (pre : List Event) (a : ClientAct) :
    (c.after pre).step a = (c.step a).map (·.after pre) := by
  cases a with
  | enter thread header tasks t0Ns timeNs =>
      have henter : (c.after pre).enter thread header tasks t0Ns timeNs =
          (c.enter thread header tasks t0Ns timeNs).map (·.after pre) := by
        unfold Clients.enter
        split
        · rfl
        · split
          · rfl
          · change ((c.sys.after pre).step _).map _ = _
            rw [c.sys.step_after pre]
            rfl
      have hout : (c.after pre).outside thread = c.outside thread := rfl
      simp only [step, henter, hout]
      split <;> rfl
  | call thread a =>
      have hcalls : (c.after pre).calls = c.calls := rfl
      simp only [step, hcalls]
      cases c.calls[thread]? with
      | none => rfl
      | some call =>
          obtain ⟨submit, tasks, pc⟩ := call
          cases a with
          | lookup =>
              cases pc with
              | enqueued taskId =>
                  simp only [Option.bind_some, callStep, after, Sys.after]
                  split <;> rfl
              | _ => rfl
          | wait answer =>
              cases pc with
              | blocked taskId waiter =>
                  cases answer with
                  | error => rfl
                  | ok =>
                      have hcompleted : (c.after pre).completed = c.completed := rfl
                      simp only [Option.bind_some, callStep, hcompleted]
                      split <;> rfl
              | _ => rfl
          | abort =>
              cases pc with
              | aborting taskId err =>
                  simp only [Option.bind_some, callStep, after, c.sys.step_after pre]
                  rfl
              | _ => rfl
          | take =>
              cases pc with
              | woken taskId =>
                  simp only [Option.bind_some, callStep, after, c.sys.step_after pre]
                  rfl
              | _ => rfl
          | copyBack => cases pc <;> rfl
  | worker a =>
      have hwakes : (c.after pre).wakes a = c.wakes a := rfl
      simp only [step, hwakes]
      simp only [after, c.sys.step_after pre a]
      split
      · cases c.sys.step a <;> rfl
      · rfl
  | signal =>
      simp only [step, after]
      split <;> rfl

theorem runFrom_after (c : Clients) (pre : List Event) (acts : List ClientAct) :
    clients.runFrom (c.after pre) acts = (clients.runFrom c acts).map (·.after pre) := by
  induction acts generalizing c with
  | nil => rfl
  | cons a acts ih =>
      change ((c.after pre).step a).bind _ = ((c.step a).bind _).map _
      rw [c.step_after pre a]
      cases c.step a with
      | none => rfl
      | some c' => exact ih c'

/-- A call of the thread that is interrupted before anything of its submit is dispatched. -/
def interruptedCall (thread : Nat) (submit : RknpuSubmit) (tasks : List RknpuTask) (timeNs : UInt64) : List ClientAct :=
  [.enter thread (.ok submit) (.ok tasks) timeNs timeNs, .call thread .lookup, .call thread (.wait (.error .interrupted)),
    .call thread .abort]

/-- The call as it is left behind. -/
def interruptedPc (taskId : RknpuQueueTaskId) : CallPc := .returned (some taskId) (.interrupted .interrupted)

/-- No submit does more than to be aborted. -/
def OnlyAborts (evs : List Event) : Prop :=
  ∀ (taskId : RknpuQueueTaskId) (e : SubmitEvent), .submit taskId e ∈ evs → e = .aborted

theorem OnlyAborts.append {evs evs' : List Event} (h : OnlyAborts evs) (h' : OnlyAborts evs') :
    OnlyAborts (evs ++ evs') :=
  fun taskId e hmem => (List.mem_append.mp hmem).elim (h taskId e) (h' taskId e)

theorem onlyAborts_interrupted (y : Sys Nat) (queued : RknpuQueuedSubmit) (waiter : Nat) (timeNs : UInt64)
    (taskId : RknpuQueueTaskId) :
    ∃ evs, ((y.enqueue queued waiter timeNs).abort taskId).hist = y.hist ++ evs ∧ OnlyAborts evs := by
  refine ⟨_, (congrArg (· ++ _) (List.append_assoc ..)).trans (List.append_assoc ..), fun id e hmem => ?_⟩
  simp only [List.mem_append, List.mem_singleton, mem_movedEvent, reduceCtorEq, and_false, exists_false, or_false,
    false_or] at hmem
  split at hmem
  · cases List.mem_singleton.mp hmem
    rfl
  · cases hmem

theorem acceptSubmit_ok {submit : RknpuSubmit} {tasks : List RknpuTask} (h : Accepted submit tasks) :
    acceptSubmit (.ok submit) (.ok tasks) = .ok (submit, tasks) := by
  simp [acceptSubmit, h.checked, bind, Except.bind, pure, Except.pure]

theorem step_enter_ok {c : Clients} {thread : Nat} {submit : RknpuSubmit} {tasks : List RknpuTask}
    (haccepted : Accepted submit tasks) (hout : c.outside thread = true) (t0Ns timeNs : UInt64) :
    c.step (.enter thread (.ok submit) (.ok tasks) t0Ns timeNs) = some (c.register thread submit tasks
      (c.sys.enqueue (queuedSubmit submit tasks t0Ns) c.nextWaiter timeNs)) := by
  simp only [step, hout, enter, acceptSubmit_ok haccepted, haccepted.length, ↓reduceIte, ne_eq, not_true_eq_false]
  rfl

theorem runFrom_interruptedCall {c : Clients} {thread : Nat} {submit : RknpuSubmit} {tasks : List RknpuTask}
    (haccepted : Accepted submit tasks) (timeNs : UInt64) (hout : c.outside thread = true)
    (hs : c.sys.state.Consistent) (hstarted : c.sys.state.workerStarted = true)
    (hunknown : c.sys.state.Unknown c.sys.nextQueueTaskId) :
    ∃ y, clients.runFrom c (interruptedCall thread submit tasks timeNs) = some { c with
        sys := y
        calls := c.calls.insert thread ⟨submit, tasks, interruptedPc c.sys.nextQueueTaskId⟩
        nextWaiter := c.nextWaiter + 1 } ∧
      y.state = c.sys.state ∧ y.worker = c.sys.worker ∧ y.nextQueueTaskId = c.sys.nextQueueTaskId + 1 ∧
      ∃ evs, y.hist = c.sys.hist ++ evs ∧ OnlyAborts evs := by
  refine ⟨(c.sys.enqueue (queuedSubmit submit tasks timeNs) c.nextWaiter timeNs).abort c.sys.nextQueueTaskId, ?_,
    abortWait_enqueueSubmit hs hstarted hunknown _ _ timeNs, rfl, rfl, onlyAborts_interrupted ..⟩
  generalize hc₁ : c.register thread submit tasks (c.sys.enqueue (queuedSubmit submit tasks timeNs) c.nextWaiter timeNs) = c₁
  have henter : c.step (.enter thread (.ok submit) (.ok tasks) timeNs timeNs) = some c₁ :=
    hc₁ ▸ step_enter_ok haccepted hout timeNs timeNs
  have hwaiter : c₁.sys.state.waiters[c.sys.nextQueueTaskId]? = some c.nextWaiter := by
    rw [← hc₁]
    exact Std.ExtTreeMap.getElem?_insert_self
  have hcall : c₁.calls[thread]? = some ⟨submit, tasks, .enqueued c.sys.nextQueueTaskId⟩ := by
    rw [← hc₁]
    exact Std.ExtTreeMap.getElem?_insert_self
  simp only [interruptedCall, Machine.runFrom, clients, henter, Option.bind_some]
  simp only [step, hcall, Option.bind_some, callStep, hwaiter, setPc, Std.ExtTreeMap.getElem?_insert_self,
    Std.ExtTreeMap.insert_insert_same, Sys.step, Option.map_some]
  simp only [← hc₁, register, Std.ExtTreeMap.insert_insert_same]
  rfl

theorem runFrom_interruptedCalls {submit : RknpuSubmit} {tasks : List RknpuTask} (haccepted : Accepted submit tasks)
    (timeNs : UInt64) (thread n : Nat) {c : Clients} (hout : c.outside thread = true) (hs : c.sys.state.Consistent)
    (hstarted : c.sys.state.workerStarted = true)
    (hunknown : ∀ k ≤ n, c.sys.state.Unknown (c.sys.nextQueueTaskId + UInt64.ofNat k)) :
    ∃ y, clients.runFrom c (List.replicate (n + 1) (interruptedCall thread submit tasks timeNs)).flatten = some { c with
        sys := y
        calls := c.calls.insert thread ⟨submit, tasks, interruptedPc (c.sys.nextQueueTaskId + UInt64.ofNat n)⟩
        nextWaiter := c.nextWaiter + (n + 1) } ∧
      y.state = c.sys.state ∧ y.worker = c.sys.worker ∧
      y.nextQueueTaskId = c.sys.nextQueueTaskId + UInt64.ofNat (n + 1) ∧
      ∃ evs, y.hist = c.sys.hist ++ evs ∧ OnlyAborts evs := by
  induction n generalizing c with
  | zero =>
      have hfirst := hunknown 0 le_rfl
      rw [show UInt64.ofNat 0 = 0 from rfl, UInt64.add_zero] at hfirst
      obtain ⟨y, hrun, hy⟩ := runFrom_interruptedCall haccepted timeNs hout hs hstarted hfirst
      exact ⟨y, by simpa using hrun, hy⟩
  | succ n ih =>
      have hfirst := hunknown 0 (Nat.zero_le _)
      rw [show UInt64.ofNat 0 = 0 from rfl, UInt64.add_zero] at hfirst
      obtain ⟨y, hrun, hstate, hworker, hnext, evs, hhist, haborts⟩ :=
        runFrom_interruptedCall haccepted timeNs hout hs hstarted hfirst
      have hshift : ∀ k, y.nextQueueTaskId + UInt64.ofNat k = c.sys.nextQueueTaskId + UInt64.ofNat (k + 1) := by
        intro k
        rw [hnext, UInt64.add_assoc, UInt64.add_comm 1, UInt64.ofNat_add]
        rfl
      rw [List.replicate_succ, List.flatten_cons, Machine.runFrom_append, hrun, Option.bind_some]
      generalize hc₁ : ({ c with
        sys := y
        calls := c.calls.insert thread ⟨submit, tasks, interruptedPc c.sys.nextQueueTaskId⟩
        nextWaiter := c.nextWaiter + 1 } : Clients) = c₁
      have hsys : c₁.sys = y := by rw [← hc₁]
      have hout₁ : c₁.outside thread = true := by
        rw [← hc₁]
        simp [outside, interruptedPc]
      obtain ⟨y', hrun', hstate', hworker', hnext', evs', hhist', haborts'⟩ := ih (c := c₁) hout₁
        (by rw [hsys, hstate]; exact hs)
        (by rw [hsys, hstate]; exact hstarted) (by
          intro k hk
          rw [hsys, hstate, hshift]
          exact hunknown (k + 1) (by omega))
      rw [hsys] at hrun' hstate' hworker' hnext' hhist'
      refine ⟨y', ?_, hstate'.trans hstate, hworker'.trans hworker, by rw [hnext', hshift], evs ++ evs',
        by rw [hhist', hhist, List.append_assoc], haborts.append haborts'⟩
      rw [hrun', hshift, ← hc₁]
      simp only [Std.ExtTreeMap.insert_insert_same, Option.some.injEq, Clients.mk.injEq, true_and, and_true]
      omega

/-- The state as it comes back after the thread's interrupted calls, without its history. -/
def wrapped (c : Clients) (thread : Nat) (submit : RknpuSubmit) (tasks : List RknpuTask) : Clients :=
  { c with
    sys := c.sys.wrapped
    calls := c.calls.insert thread ⟨submit, tasks, interruptedPc 0⟩
    nextWaiter := c.nextWaiter + (2 ^ 64 - 1) }

theorem runFrom_wrapped {c : Clients} (hs : c.sys.state.Consistent) (h : c.sys.OnlyFirst) {thread : Nat}
    (hout : c.outside thread = true) {submit : RknpuSubmit} {tasks : List RknpuTask}
    (haccepted : Accepted submit tasks) (timeNs : UInt64) :
    ∃ n evs, OnlyAborts evs ∧ clients.runFrom c (List.replicate n (interruptedCall thread submit tasks timeNs)).flatten =
      some ((c.wrapped thread submit tasks).after (c.sys.hist ++ evs)) := by
  obtain ⟨n, hn⟩ : ∃ n, n = 2 ^ 64 - 2 := ⟨_, rfl⟩
  obtain ⟨y, hcalls, hstate, hworker, hnext, evs, hhist, haborts⟩ := runFrom_interruptedCalls haccepted timeNs thread n hout
    hs h.2.1 fun k hk => h.unknown_of_lt (by omega)
  have hlast : c.sys.nextQueueTaskId + UInt64.ofNat n = 0 := by
    rw [hn, h.1]
    rfl
  have hcount : n + 1 = 2 ^ 64 - 1 := by omega
  refine ⟨n + 1, evs, haborts, hcalls.trans (congrArg some ?_)⟩
  rw [hcount] at hnext
  have hy := Sys.eq_wrapped_after h hstate hworker hnext
  rw [hlast, hcount, ← hhist]
  unfold after wrapped
  rw [← hy]

theorem exists_wrapped {acts : List ClientAct} {c : Clients} (hrun : clients.run acts = some c) (hfit : c.sys.IdsFit)
    (h : c.sys.OnlyFirst) {thread : Nat} (hout : c.outside thread = true) {submit : RknpuSubmit}
    {tasks : List RknpuTask} (haccepted : Accepted submit tasks) :
    ∃ acts' evs, OnlyAborts evs ∧
      clients.run acts' = some ((c.wrapped thread submit tasks).after (c.sys.hist ++ evs)) := by
  obtain ⟨n, evs, haborts, hcalls⟩ :=
    runFrom_wrapped (Clients.sys_of_run hrun hfit).1.queues h hout haccepted 0
  exact ⟨_, evs, haborts, Machine.run_append hrun hcalls⟩

/-- A run of calls that goes on after the ids have come round, checked by evaluation. -/
theorem exists_wrapped_run (acts later : List ClientAct) (thread : Nat) {submit : RknpuSubmit}
    {tasks : List RknpuTask} (haccepted : Accepted submit tasks) {p : Clients → Clients → Prop}
    [∀ c, DecidablePred (p c)]
    (h : ((clients.run acts).any fun c => decide (c.sys.IdsFit ∧ c.sys.OnlyFirst ∧ c.outside thread = true) &&
      (clients.runFrom (c.wrapped thread submit tasks) later).any fun d => decide (p c d)) = true) :
    ∃ acts' c evs d, clients.run acts' = some (d.after (c.sys.hist ++ evs)) ∧ OnlyAborts evs ∧ p c d := by
  obtain ⟨c, hrun, hc⟩ := (Option.any_eq_true _ _).mp h
  rw [Bool.and_eq_true, decide_eq_true_eq] at hc
  obtain ⟨⟨hfit, hfirst, hout⟩, hlater⟩ := hc
  obtain ⟨d, hd, hp⟩ := (Option.any_eq_true _ _).mp hlater
  obtain ⟨acts', evs, haborts, hrun'⟩ := exists_wrapped hrun hfit hfirst hout haccepted
  refine ⟨acts' ++ later, c, evs, d, Machine.run_append hrun' ?_, haborts, of_decide_eq_true hp⟩
  rw [runFrom_after, hd]
  rfl

end Clients

end Rknpu.Service
