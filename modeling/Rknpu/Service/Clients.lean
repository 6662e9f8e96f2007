import Rknpu.Service.Ioctl
import Rknpu.Service.System

/-!
# Submit ioctls and the scheduler

Any number of threads call the submit ioctl, each of them again and again. One action is one atomic step of a call
or of the worker: a locked section, a wait that returns, or the completion of one waiter. A waiter is a number, new
for each call; its wait may fail at any time and succeeds only after the worker has completed it.
-/

namespace Rknpu.Service

open Queue

/-! ## States -/

/-- Where a submit ioctl stands. -/
inductive CallPc where
  /-- `enqueue_submit` has returned. -/
  | enqueued (taskId : RknpuQueueTaskId)
  | blocked (taskId : RknpuQueueTaskId) (waiter : Nat)
  /-- The wait has failed; `abort_wait` is next. -/
  | aborting (taskId : RknpuQueueTaskId) (err : RknpuServiceError)
  /-- The wait is over; `take_terminal_submit` is next. -/
  | woken (taskId : RknpuQueueTaskId)
  | copying (taskId : RknpuQueueTaskId) (finished : CompletedSubmit)
  | returned (taskId : Option RknpuQueueTaskId) (outcome : Outcome)

/-- A call with the header and the task array it has copied in. -/
structure Call where
  submit : RknpuSubmit
  tasks : List RknpuTask
  pc : CallPc

structure Clients where
  sys : Sys Nat
  /-- The latest call of each thread. -/
  calls : Std.ExtTreeMap Nat Call compare
  nextWaiter : Nat
  /-- The waiters that `wake_terminal_tasks` has still to complete, after it has released the lock. -/
  signals : List Nat
  /-- The waiters that are completed. -/
  completed : List Nat

def Clients.init : Clients where
  sys := Sys.init
  calls := ∅
  nextWaiter := 0
  signals := []
  completed := []

/-! ## Actions -/

/-- A step of a call that is under way. -/
inductive CallAct where
  /-- The locked section of `wait_for_submit`. -/
  | lookup
  /-- `waiter.wait()` returns. -/
  | wait (answer : Except RknpuServiceError Unit)
  | abort
  | take
  /-- The epilogue; what the copies to userspace answer. -/
  | copyBack (tasksCopy headerCopy : Except RknpuServiceError Unit)

inductive ClientAct where
  /-- The prologue up to the locked section of `enqueue_submit`; what the copies from userspace answer. -/
  | enter (thread : Nat) (header : Except RknpuServiceError RknpuSubmit)
      (tasks : Except RknpuServiceError (List RknpuTask)) (t0Ns timeNs : UInt64)
  | call (thread : Nat) (a : CallAct)
  | worker (a : Act Nat)
  /-- The worker completes the next waiter. -/
  | signal

namespace Clients

/-- The thread is in no call. -/
def outside (c : Clients) (thread : Nat) : Bool :=
  match c.calls[thread]? with
  | none => true
  | some call =>
      match call.pc with
      | .returned _ _ => true
      | _ => false

def setPc (c : Clients) (thread : Nat) (call : Call) (pc : CallPc) : Clients :=
  { c with calls := c.calls.insert thread { call with pc } }

/-- The waiters that a section of the worker leaves to be completed. -/
def wakes (c : Clients) : Act Nat → List Nat
  | .wake deviceError =>
      match c.sys.worker with
      | .waking taskIds prepareRead => (c.sys.state.wakeTerminalTasks (prepareRead && deviceError) taskIds).1
      | _ => []
  | _ => []

/-- The state after the thread has enqueued its submit. -/
def register (c : Clients) (thread : Nat) (submit : RknpuSubmit) (tasks : List RknpuTask) (sys : Sys Nat) : Clients :=
  { c with
    sys
    calls := c.calls.insert thread ⟨submit, tasks, .enqueued c.sys.nextQueueTaskId⟩
    nextWaiter := c.nextWaiter + 1 }

def enter (c : Clients) (thread : Nat) (header : Except RknpuServiceError RknpuSubmit)
    (tasks : Except RknpuServiceError (List RknpuTask)) (t0Ns timeNs : UInt64) : Option Clients :=
  match acceptSubmit header tasks with
  | .error err =>
      some { c with calls := c.calls.insert thread ⟨.default, [], .returned none (.refused err)⟩ }
  | .ok (submit, tasks) =>
      -- The task array has the length that the header gives.
      if tasks.length ≠ submit.taskNumber.toNat then none
      else
        (c.sys.step (.enqueue submit tasks t0Ns c.nextWaiter timeNs)).map (c.register thread submit tasks)

def callStep (c : Clients) (thread : Nat) (call : Call) : CallAct → Option Clients
  | .lookup =>
      match call.pc with
      | .enqueued taskId =>
          match c.sys.state.waiters[taskId]? with
          | some waiter => some (c.setPc thread call (.blocked taskId waiter))
          | none => some (c.setPc thread call (.returned taskId .unregistered))
      | _ => none
  | .wait answer =>
      match call.pc, answer with
      | .blocked taskId _, .error err => some (c.setPc thread call (.aborting taskId err))
      | .blocked taskId waiter, .ok () =>
          if waiter ∈ c.completed then some (c.setPc thread call (.woken taskId)) else none
      | _, _ => none
  | .abort =>
      match call.pc with
      | .aborting taskId err =>
          (c.sys.step (.abort taskId)).map fun sys =>
            { c with sys }.setPc thread call (.returned taskId (.interrupted err))
      | _ => none
  | .take =>
      match call.pc with
      | .woken taskId =>
          (c.sys.step (.take taskId)).map fun sys =>
            { c with sys }.setPc thread call
              (match (c.sys.state.takeTerminalSubmit taskId).1 with
              | .ok finished => .copying taskId finished
              | .error _ => .returned taskId .missing)
      | _ => none
  | .copyBack tasksCopy headerCopy =>
      match call.pc with
      | .copying taskId finished =>
          some (c.setPc thread call (.returned taskId (.replied finished tasksCopy headerCopy)))
      | _ => none

def step (c : Clients) : ClientAct → Option Clients
  | .enter thread header tasks t0Ns timeNs =>
      if c.outside thread then c.enter thread header tasks t0Ns timeNs else none
  | .call thread a => c.calls[thread]?.bind fun call => c.callStep thread call a
  | .worker a =>
      if a.isWorker ∧ c.signals = [] then
        (c.sys.step a).map fun sys => { c with sys, signals := c.wakes a }
      else none
  | .signal =>
      match c.signals with
      | [] => none
      | waiter :: signals => some { c with signals, completed := waiter :: c.completed }

end Clients

def clients : Machine Clients ClientAct := ⟨Clients.init, Clients.step⟩

/-- What one step does. -/
inductive Clients.Step (c : Clients) : ClientAct → Clients → Prop where
  | refuse {thread : Nat} {header : Except RknpuServiceError RknpuSubmit}
      {tasks : Except RknpuServiceError (List RknpuTask)} {t0Ns timeNs : UInt64} (err : RknpuServiceError) :
      c.outside thread = true →
      Step c (.enter thread header tasks t0Ns timeNs)
        { c with calls := c.calls.insert thread ⟨.default, [], .returned none (.refused err)⟩ }
  | enter {thread : Nat} {header : Except RknpuServiceError RknpuSubmit}
      {tasks : Except RknpuServiceError (List RknpuTask)} {t0Ns timeNs : UInt64} {submit : RknpuSubmit}
      {tasks' : List RknpuTask} {sys : Sys Nat} :
      c.outside thread = true → Accepted submit tasks' →
      c.sys.step (.enqueue submit tasks' t0Ns c.nextWaiter timeNs) = some sys →
      Step c (.enter thread header tasks t0Ns timeNs) (c.register thread submit tasks' sys)
  | block {thread : Nat} {submit : RknpuSubmit} {tasks : List RknpuTask} {taskId : RknpuQueueTaskId} {waiter : Nat} :
      c.calls[thread]? = some ⟨submit, tasks, .enqueued taskId⟩ → c.sys.state.waiters[taskId]? = some waiter →
      Step c (.call thread .lookup) (c.setPc thread ⟨submit, tasks, .enqueued taskId⟩ (.blocked taskId waiter))
  | unregistered {thread : Nat} {submit : RknpuSubmit} {tasks : List RknpuTask} {taskId : RknpuQueueTaskId} :
      c.calls[thread]? = some ⟨submit, tasks, .enqueued taskId⟩ → c.sys.state.waiters[taskId]? = none →
      Step c (.call thread .lookup)
        (c.setPc thread ⟨submit, tasks, .enqueued taskId⟩ (.returned taskId .unregistered))
  | interrupt {thread : Nat} {submit : RknpuSubmit} {tasks : List RknpuTask} {taskId : RknpuQueueTaskId} {waiter : Nat}
      (err : RknpuServiceError) :
      c.calls[thread]? = some ⟨submit, tasks, .blocked taskId waiter⟩ →
      Step c (.call thread (.wait (.error err)))
        (c.setPc thread ⟨submit, tasks, .blocked taskId waiter⟩ (.aborting taskId err))
  | wakeUp {thread : Nat} {submit : RknpuSubmit} {tasks : List RknpuTask} {taskId : RknpuQueueTaskId} {waiter : Nat} :
      c.calls[thread]? = some ⟨submit, tasks, .blocked taskId waiter⟩ → waiter ∈ c.completed →
      Step c (.call thread (.wait (.ok ()))) (c.setPc thread ⟨submit, tasks, .blocked taskId waiter⟩ (.woken taskId))
  | abort {thread : Nat} {submit : RknpuSubmit} {tasks : List RknpuTask} {taskId : RknpuQueueTaskId}
      {err : RknpuServiceError} {sys : Sys Nat} :
      c.calls[thread]? = some ⟨submit, tasks, .aborting taskId err⟩ → c.sys.step (.abort taskId) = some sys →
      Step c (.call thread .abort) ({ c with sys }.setPc thread ⟨submit, tasks, .aborting taskId err⟩
        (.returned taskId (.interrupted err)))
  | take {thread : Nat} {submit : RknpuSubmit} {tasks : List RknpuTask} {taskId : RknpuQueueTaskId} {t : RknpuQueueTask}
      {sys : Sys Nat} :
      c.calls[thread]? = some ⟨submit, tasks, .woken taskId⟩ → c.sys.state.complete[taskId]? = some t →
      c.sys.step (.take taskId) = some sys →
      Step c (.call thread .take) ({ c with sys }.setPc thread ⟨submit, tasks, .woken taskId⟩
        (.copying taskId ⟨t.buildSubmit, t.tasks, t.lastError, t.latency⟩))
  | missing {thread : Nat} {submit : RknpuSubmit} {tasks : List RknpuTask} {taskId : RknpuQueueTaskId} {sys : Sys Nat} :
      c.calls[thread]? = some ⟨submit, tasks, .woken taskId⟩ → c.sys.state.complete[taskId]? = none →
      c.sys.step (.take taskId) = some sys →
      Step c (.call thread .take)
        ({ c with sys }.setPc thread ⟨submit, tasks, .woken taskId⟩ (.returned taskId .missing))
  | copyBack {thread : Nat} {submit : RknpuSubmit} {tasks : List RknpuTask} {taskId : RknpuQueueTaskId}
      {finished : CompletedSubmit} (tasksCopy headerCopy : Except RknpuServiceError Unit) :
      c.calls[thread]? = some ⟨submit, tasks, .copying taskId finished⟩ →
      Step c (.call thread (.copyBack tasksCopy headerCopy)) (c.setPc thread ⟨submit, tasks, .copying taskId finished⟩
        (.returned taskId (.replied finished tasksCopy headerCopy)))
  | worker {a : Act Nat} {sys : Sys Nat} :
      a.isWorker = true → c.signals = [] → c.sys.step a = some sys →
      Step c (.worker a) { c with sys, signals := c.wakes a }
  | signal {waiter : Nat} {signals : List Nat} :
      c.signals = waiter :: signals → Step c .signal { c with signals, completed := waiter :: c.completed }

theorem Clients.step_cases {c c' : Clients} {a : ClientAct} (h : c.step a = some c') : c.Step a c' := by
  cases a with
  | enter thread header tasks t0Ns timeNs =>
      obtain ⟨hout, h⟩ := Option.ite_none_right_eq_some.mp h
      unfold Clients.enter at h
      split at h
      · cases h
        exact .refuse _ hout
      · rename_i submit tasks' haccept
        obtain ⟨hlen, h⟩ := Option.ite_none_left_eq_some.mp h
        obtain ⟨sys, hs, rfl⟩ := Option.map_eq_some_iff.mp h
        exact .enter hout ⟨checkSubmit_of_acceptSubmit haccept, not_not.mp hlen⟩ hs
  | call thread a =>
      obtain ⟨⟨submit, tasks, pc⟩, hcall, h⟩ := Option.bind_eq_some_iff.mp h
      cases a with
      | lookup =>
          cases pc with
          | enqueued taskId =>
              simp only [callStep] at h
              split at h
              · cases h
                exact .block hcall ‹_›
              · cases h
                exact .unregistered hcall ‹_›
          | _ => cases h
      | wait answer =>
          cases pc with
          | blocked taskId waiter =>
              cases answer with
              | error err =>
                  cases h
                  exact .interrupt err hcall
              | ok =>
                  obtain ⟨hmem, h⟩ := Option.ite_none_right_eq_some.mp h
                  cases h
                  exact .wakeUp hcall hmem
          | _ => cases h
      | abort =>
          cases pc with
          | aborting taskId err =>
              cases h
              exact .abort hcall rfl
          | _ => cases h
      | take =>
          cases pc with
          | woken taskId =>
              cases h
              simp only [NpuSchedulerState.takeTerminalSubmit]
              cases hc : c.sys.state.complete[taskId]? with
              | none => exact .missing hcall hc rfl
              | some t => exact .take hcall hc rfl
          | _ => cases h
      | copyBack tasksCopy headerCopy =>
          cases pc with
          | copying taskId finished =>
              cases h
              exact .copyBack tasksCopy headerCopy hcall
          | _ => cases h
  | worker a =>
      obtain ⟨⟨hworker, hsignals⟩, h⟩ := Option.ite_none_right_eq_some.mp h
      obtain ⟨sys, hs, rfl⟩ := Option.map_eq_some_iff.mp h
      exact .worker hworker hsignals hs
  | signal =>
      simp only [Clients.step] at h
      split at h
      · cases h
      · cases h
        exact .signal ‹_›

end Rknpu.Service
