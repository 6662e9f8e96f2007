import Rknpu.Service.Lemmas.Rounds
import Rknpu.Service.Lemmas.Timed

/-!
# Interrupted calls under the clock

Rounds of interrupted calls with the readings of the clock and the pushes of records. With the schedule trace off, a
round leaves nothing behind but its use of an id, so the ids come round here as well.
-/

namespace Rknpu.Service

open Queue

namespace Timed

/-! ## The history does not matter -/

def after (s : Timed) (pre : List Event) : Timed := { s with clients := s.clients.after pre }

section

variable (s : Timed) (pre : List Event)

@[simp] theorem after_clients : (s.after pre).clients = s.clients.after pre := rfl

@[simp] theorem after_threads : (s.after pre).threads = s.threads := rfl

@[simp] theorem after_dispatch : (s.after pre).dispatch = s.dispatch := rfl

@[simp] theorem after_harvesting : (s.after pre).harvesting = s.harvesting := rfl

@[simp] theorem after_records : (s.after pre).records = s.records := rfl

@[simp] theorem after_workerReady : (s.after pre).workerReady = s.workerReady := rfl

end

theorem lower_after (s : Timed) (pre : List Event) (a : ClientAct) : (s.after pre).lower a = (s.lower a).map (·.after pre) := by
  simp only [lower, after, s.clients.step_after pre a]
  cases s.clients.step a <;> rfl

theorem read_after (s : Timed) (pre : List Event) (timeNs : UInt64) :
    (s.after pre).read timeNs = (s.read timeNs).map (·.after pre) := by
  unfold read
  by_cases h : s.now ≤ timeNs
  · rw [if_pos h, if_pos (show (s.after pre).now ≤ timeNs from h)]
    rfl
  · rw [if_neg h, if_neg (show ¬ (s.after pre).now ≤ timeNs from h)]
    rfl

theorem callStep_after (s : Timed) (pre : List Event) (thread : Nat) (a : CallAct) :
    (s.after pre).callStep thread a = (s.callStep thread a).map (·.after pre) := by
  simp only [callStep, lower_after, after_threads]
  split <;> rfl

theorem lockedCallStep_after (s : Timed) (pre : List Event) (thread : Nat) (a : CallAct) :
    (s.after pre).lockedCallStep thread a = (s.lockedCallStep thread a).map (·.after pre) := by
  simp only [lockedCallStep, callStep_after, after_harvesting]
  split <;> rfl

/-- A step below and a change of what does not concern the calls. -/
theorem map_after {x : Option Timed} {pre : List Event} {f : Timed → Timed}
    (hf : ∀ s : Timed, f (s.after pre) = (f s).after pre) : (x.map (·.after pre)).map f = (x.map f).map (·.after pre) := by
  cases x with
  | none => rfl
  | some s => exact congrArg some (hf s)

theorem enter_after (s : Timed) (pre : List Event) (thread : Nat) (header : Except RknpuServiceError RknpuSubmit)
    (tasks : Except RknpuServiceError (List RknpuTask)) (timeNs t0Ns : UInt64) :
    (s.after pre).enter thread header tasks timeNs t0Ns = (s.enter thread header tasks timeNs t0Ns).map (·.after pre) := by
  unfold enter
  split
  · rw [lower_after]
    exact map_after fun _ => rfl
  · rw [after_harvesting]
    split
    · rw [read_after]
      cases s.read timeNs with
      | none => rfl
      | some s₁ =>
          simp only [Option.map_some, Option.bind_some]
          rw [lower_after]
          exact map_after fun _ => rfl
    · rfl

theorem copyBack_after (s : Timed) (pre : List Event) (thread : Nat) (tasksCopy headerCopy : Except RknpuServiceError Unit)
    (timeNs : UInt64) (taskId : RknpuQueueTaskId) (finished : CompletedSubmit) :
    (s.after pre).copyBack thread tasksCopy headerCopy timeNs taskId finished =
      (s.copyBack thread tasksCopy headerCopy timeNs taskId finished).map (·.after pre) := by
  unfold copyBack
  rw [callStep_after]
  cases s.callStep thread (.copyBack tasksCopy headerCopy) with
  | none => rfl
  | some s₁ =>
      simp only [Option.map_some, Option.bind_some]
      split
      · rfl
      · rw [read_after]
        exact map_after fun _ => rfl

theorem step_after (s : Timed) (pre : List Event) (a : TimedAct) : (s.after pre).step a = (s.step a).map (·.after pre) := by
  have hworker : (s.clients.after pre).sys.worker = s.clients.sys.worker := rfl
  cases a with
  | ioctl thread timeNs =>
      have hout : (s.clients.after pre).outside thread = s.clients.outside thread := rfl
      simp only [step, after_clients, hout, after_threads, read_after]
      split
      · exact map_after fun _ => rfl
      · rfl
  | enter thread header tasks timeNs =>
      simp only [step, after_threads, enter_after]
      split <;> rfl
  | recordEnqueue thread =>
      simp only [step, after_threads]
      split <;> rfl
  | lookup thread => exact lockedCallStep_after s pre thread _
  | wait thread answer => exact callStep_after s pre thread _
  | abort thread => exact lockedCallStep_after s pre thread _
  | take thread => exact lockedCallStep_after s pre thread _
  | copyBack thread tasksCopy headerCopy timeNs =>
      have hcalls : (s.clients.after pre).calls = s.clients.calls := rfl
      simp only [step, after_clients, hcalls, copyBack_after]
      split <;> rfl
  | recordSubmit thread =>
      simp only [step, after_threads]
      split <;> rfl
  | decide =>
      simp only [step, after_workerReady, lower_after]
      split <;> rfl
  | submitStep timeNs =>
      simp only [step, after_clients, hworker, after_dispatch, read_after]
      split
      · exact map_after fun _ => rfl
      · rfl
  | launch workerCycle =>
      simp only [step, after_clients, hworker, after_dispatch, lower_after]
      split
      · exact map_after fun _ => rfl
      · rfl
  | refuse timeNs workerCycle =>
      simp only [step, after_clients, hworker, after_dispatch, read_after]
      split
      · split
        · rfl
        · exact map_after fun _ => rfl
      · rfl
  | fail err =>
      simp only [step, after_dispatch, after_workerReady, lower_after]
      split
      · exact map_after fun _ => rfl
      · rfl
  | completion completion timeNs =>
      have hsignals : (s.clients.after pre).signals = s.clients.signals := rfl
      simp only [step, after_clients, hworker, hsignals, after_records, read_after]
      split
      · exact map_after fun _ => rfl
      · rfl
  | harvest workerResumeNs workerCycle =>
      simp only [step, after_harvesting, after_records, lower_after]
      split
      · exact map_after fun _ => rfl
      · rfl
  | wake deviceError =>
      simp only [step, after_workerReady, lower_after]
      split <;> rfl
  | record =>
      simp only [step, after_records]
      split <;> rfl
  | signal => exact lower_after s pre .signal
  | configure eventMask => rfl
  | resetSubmits => rfl

theorem runFrom_after (start : UInt64) (s : Timed) (pre : List Event) (acts : List TimedAct) :
    (timed start).runFrom (s.after pre) acts = ((timed start).runFrom s acts).map (·.after pre) := by
  induction acts generalizing s with
  | nil => rfl
  | cons a acts ih =>
      change ((s.after pre).step a).bind _ = ((s.step a).bind _).map _
      rw [s.step_after pre a]
      cases s.step a with
      | none => rfl
      | some s' => exact ih s'

/-! ## Rounds -/

/-- A call of the thread that is interrupted before anything of its submit is dispatched. -/
def interruptedCall (thread : Nat) (submit : RknpuSubmit) (tasks : List RknpuTask) (timeNs : UInt64) : List TimedAct :=
  [.ioctl thread timeNs, .enter thread (.ok submit) (.ok tasks) timeNs, .recordEnqueue thread, .lookup thread,
    .wait thread (.error .interrupted), .abort thread]

variable {start : UInt64} {s : Timed} {thread : Nat} {submit : RknpuSubmit} {tasks : List RknpuTask} {c : Clients}

/-- A round below is a round here. -/
theorem runFrom_interruptedCall (haccepted : Accepted submit tasks) (hthread : s.threads[thread]? = none)
    (hlock : s.harvesting = []) (hoff : s.schedule.enabled = false)
    (h : Service.clients.runFrom s.clients (Clients.interruptedCall thread submit tasks s.now) = some c) :
    (timed start).runFrom s (interruptedCall thread submit tasks s.now) = some { s with clients := c } := by
  obtain ⟨c₁, h₁, h⟩ := Option.bind_eq_some_iff.mp h
  obtain ⟨c₂, h₂, h⟩ := Option.bind_eq_some_iff.mp h
  obtain ⟨c₃, h₃, h⟩ := Option.bind_eq_some_iff.mp h
  obtain ⟨c₄, h₄, h⟩ := Option.bind_eq_some_iff.mp h
  cases h
  have hout : s.clients.outside thread = true := (Option.ite_none_right_eq_some.mp h₁).1
  have h₁ : s.clients.step (.enter thread (.ok submit) (.ok tasks) s.now s.now) = some c₁ := h₁
  have h₂ : c₁.step (.call thread .lookup) = some c₂ := h₂
  have h₃ : c₂.step (.call thread (.wait (.error .interrupted))) = some c₃ := h₃
  have h₄ : c₃.step (.call thread .abort) = some c := h₄
  have hle : s.now ≤ s.now := UInt64.le_refl _
  have herase : ∀ pc : ThreadPc, (s.threads.insert thread pc).erase thread = s.threads :=
    fun _ => Std.ExtTreeMap.erase_insert_of_fresh _ hthread
  simp only [interruptedCall, Machine.runFrom, timed, step, hout, hthread, and_self, ↓reduceIte, read, hle,
    Option.map_some, Option.bind_some, Std.ExtTreeMap.getElem?_insert_self, enter, Clients.acceptSubmit_ok haccepted,
    hlock, lower, h₁, push, ScheduleTrace.recordScheduleEvent, hoff, Std.ExtTreeMap.insert_insert_same, herase,
    lockedCallStep, callStep, h₂, h₃, h₄]
  rfl

theorem runFrom_interruptedCalls (haccepted : Accepted submit tasks) (hthread : s.threads[thread]? = none)
    (hlock : s.harvesting = []) (hoff : s.schedule.enabled = false) (n : Nat)
    (h : Service.clients.runFrom s.clients
      (List.replicate n (Clients.interruptedCall thread submit tasks s.now)).flatten = some c) :
    (timed start).runFrom s (List.replicate n (interruptedCall thread submit tasks s.now)).flatten =
      some { s with clients := c } := by
  induction n generalizing s with
  | zero =>
      cases h
      rfl
  | succ n ih =>
      rw [List.replicate_succ, List.flatten_cons, Machine.runFrom_append] at h ⊢
      obtain ⟨c₁, h₁, h⟩ := Option.bind_eq_some_iff.mp h
      rw [runFrom_interruptedCall haccepted hthread hlock hoff h₁, Option.bind_some]
      exact ih (s := { s with clients := c₁ }) hthread hlock hoff h

/-- A run that goes on after the ids have come round, checked by evaluation. -/
theorem exists_wrapped_run (start : UInt64) (acts later : List TimedAct) (thread : Nat) {submit : RknpuSubmit}
    {tasks : List RknpuTask} (haccepted : Accepted submit tasks) {p : Timed → Prop} [DecidablePred p]
    (h : (((timed start).run acts).any fun s => decide (s.clients.sys.IdsFit ∧ s.clients.sys.OnlyFirst ∧
        s.clients.outside thread = true ∧ s.threads[thread]? = none ∧ s.harvesting = [] ∧ s.schedule.enabled = false) &&
      ((timed start).runFrom { s with clients := s.clients.wrapped thread submit tasks } later).any fun z =>
        decide (p z)) = true) :
    ∃ acts' pre z, (timed start).run acts' = some (z.after pre) ∧ p z := by
  obtain ⟨s, hrun, hs⟩ := (Option.any_eq_true _ _).mp h
  rw [Bool.and_eq_true, decide_eq_true_eq] at hs
  obtain ⟨⟨hfit, hfirst, hout, hthread, hlock, hoff⟩, hlater⟩ := hs
  obtain ⟨z, hz, hp⟩ := (Option.any_eq_true _ _).mp hlater
  obtain ⟨sysActs, hsys⟩ := sys_of_run hrun
  obtain ⟨n, evs, _, hrounds⟩ := Clients.runFrom_wrapped (Sys.inv_of_run hsys hfit).queues hfirst hout haccepted s.now
  have hrun' := Machine.run_append hrun (runFrom_interruptedCalls haccepted hthread hlock hoff n hrounds)
  refine ⟨_ ++ later, s.clients.sys.hist ++ evs, z, Machine.run_append hrun' ?_, of_decide_eq_true hp⟩
  change (timed start).runFrom (Timed.after { s with clients := s.clients.wrapped thread submit tasks } _) later = _
  rw [runFrom_after, hz]
  rfl

/-! ## Calls that stall -/

/-- A call of the thread that does not get to push its record. -/
def stalledCall (thread : Nat) (submit : RknpuSubmit) (tasks : List RknpuTask) (timeNs : UInt64) : List TimedAct :=
  [.ioctl thread timeNs, .enter thread (.ok submit) (.ok tasks) timeNs]

def stall (s : Timed) (thread : Nat) (submit : RknpuSubmit) (tasks : List RknpuTask) : Timed :=
  { s with
    clients := s.clients.register thread submit tasks
      (s.clients.sys.enqueue (queuedSubmit submit tasks s.now) s.clients.nextWaiter s.now)
    threads := s.threads.insert thread (.enqueued (enqueueRecord s.clients.sys.nextQueueTaskId submit tasks s.now)) }

/-- The thread is in no call. -/
structure Free (s : Timed) (thread : Nat) : Prop where
  threads : s.threads[thread]? = none
  outside : s.clients.outside thread = true

theorem runFrom_stalledCall (haccepted : Accepted submit tasks) (hfree : s.Free thread) (hlock : s.harvesting = []) :
    (timed start).runFrom s (stalledCall thread submit tasks s.now) = some (s.stall thread submit tasks) := by
  have henter := Clients.step_enter_ok haccepted hfree.outside s.now s.now
  have hle : s.now ≤ s.now := UInt64.le_refl _
  simp only [stalledCall, Machine.runFrom, timed, step, hfree.outside, hfree.threads, and_self, ↓reduceIte, read, hle,
    Option.map_some, Option.bind_some, Std.ExtTreeMap.getElem?_insert_self, enter, Clients.acceptSubmit_ok haccepted,
    hlock, lower, henter, Std.ExtTreeMap.insert_insert_same]
  rw [stall, hlock]

/-- The thread has pushed its record. -/
def enqueued (s : Timed) (thread : Nat) (submit : RknpuSubmit) (tasks : List RknpuTask) : Timed :=
  { (s.stall thread submit tasks).push (enqueueRecord s.clients.sys.nextQueueTaskId submit tasks s.now) with
    threads := s.threads }

theorem runFrom_enqueueCall (start : UInt64) (haccepted : Accepted submit tasks) (hfree : s.Free thread) (hlock : s.harvesting = []) :
    (timed start).runFrom s (stalledCall thread submit tasks s.now ++ [.recordEnqueue thread]) =
      some (s.enqueued thread submit tasks) := by
  have hthread : (s.stall thread submit tasks).threads[thread]? =
      some (.enqueued (enqueueRecord s.clients.sys.nextQueueTaskId submit tasks s.now)) :=
    Std.ExtTreeMap.getElem?_insert_self
  have herase : (s.stall thread submit tasks).threads.erase thread = s.threads :=
    Std.ExtTreeMap.erase_insert_of_fresh _ hfree.threads
  rw [Machine.runFrom_append, runFrom_stalledCall haccepted hfree hlock, Option.bind_some]
  simp only [Machine.runFrom, timed, step, hthread, herase, Option.bind_some]
  rfl

theorem Free.stall {thread' : Nat} (hfree : s.Free thread') (hne : thread ≠ thread') :
    (s.stall thread submit tasks).Free thread' where
  threads := (Std.ExtTreeMap.getElem?_insert_of_ne hne).trans hfree.threads
  outside := by
    have hcalls : (s.stall thread submit tasks).clients.calls[thread']? = s.clients.calls[thread']? :=
      Std.ExtTreeMap.getElem?_insert_of_ne hne
    unfold Clients.outside
    rw [hcalls]
    exact hfree.outside

theorem Free.enqueued {thread' : Nat} (hfree : s.Free thread') (hne : thread ≠ thread') :
    (s.enqueued thread submit tasks).Free thread' :=
  ⟨hfree.threads, (hfree.stall hne).outside⟩

def stalledCalls (submit : RknpuSubmit) (tasks : List RknpuTask) (timeNs : UInt64) (first n : Nat) : List TimedAct :=
  (List.range' first n).flatMap fun thread => stalledCall thread submit tasks timeNs

/-- What is left of many calls that stall. -/
structure StallsTo (s : Timed) (first n : Nat) (s' : Timed) : Prop where
  schedule : s'.schedule = s.schedule
  now : s'.now = s.now
  harvesting : s'.harvesting = []
  next : s'.clients.sys.nextQueueTaskId = s.clients.sys.nextQueueTaskId + UInt64.ofNat n
  free : ∀ thread, first + n ≤ thread → s'.Free thread
  hist : s.clients.sys.hist <+: s'.clients.sys.hist
  pending : ∀ (thread : Nat) (r : RknpuScheduleTraceRecord), s'.threads[thread]? = some (.enqueued r) →
    s.threads[thread]? = some (.enqueued r) ∨ ∃ i < n, r.queueTask = s.clients.sys.nextQueueTaskId + UInt64.ofNat i

theorem runFrom_stalledCalls (haccepted : Accepted submit tasks) (n first : Nat) (hlock : s.harvesting = [])
    (hfree : ∀ thread, first ≤ thread → s.Free thread) :
    ∃ s', (timed start).runFrom s (stalledCalls submit tasks s.now first n) = some s' ∧ s.StallsTo first n s' := by
  induction n generalizing s first with
  | zero => exact ⟨s, rfl, rfl, rfl, hlock, (UInt64.add_zero _).symm, hfree, List.prefix_refl _, fun _ _ h => .inl h⟩
  | succ n ih =>
      obtain ⟨s', hrun, hs'⟩ := ih (s := s.stall first submit tasks) (first + 1) hlock
        fun thread hle => (hfree thread (by omega)).stall (by omega)
      have hnext : (s.stall first submit tasks).clients.sys.nextQueueTaskId = s.clients.sys.nextQueueTaskId + 1 := rfl
      have hadd : ∀ i, s.clients.sys.nextQueueTaskId + 1 + UInt64.ofNat i =
          s.clients.sys.nextQueueTaskId + UInt64.ofNat (i + 1) := by
        intro i
        rw [UInt64.ofNat_add, UInt64.add_assoc, UInt64.add_comm 1]
        rfl
      refine ⟨s', ?_, hs'.schedule, hs'.now, hs'.harvesting, ?_, fun thread hle => hs'.free thread (by omega), ?_, ?_⟩
      · rw [stalledCalls, List.range'_succ, List.flatMap_cons, Machine.runFrom_append,
          runFrom_stalledCall haccepted (hfree first le_rfl) hlock]
        exact hrun
      · rw [hs'.next, hnext, hadd]
      · exact (List.prefix_append _ _).trans hs'.hist
      · intro thread r ht
        rcases hs'.pending thread r ht with ht | ⟨i, hi, hid⟩
        · rcases thread_of_insert ht with ht | he
          · exact .inl ht
          · cases he
            exact .inr ⟨0, by omega, (UInt64.add_zero _).symm⟩
        · exact .inr ⟨i + 1, by omega, by rw [hid, hnext, hadd]⟩

end Timed

end Rknpu.Service
