import Rknpu.Service.Clients
import Rknpu.Service.ScheduleTrace

/-!
# The clock and the traces

The submit ioctls and the worker with their readings of the clock and the records they push into the two traces. Records
are pushed after the scheduler lock is released, so other threads run between a section and its record. Each reading of
the clock is at least the one before it. While the worker is inside the locked loop of a harvest, no other thread enters
a section of the scheduler.
-/

namespace Rknpu.Service

open Queue

/-! ## Records -/

structure RknpuSubmitTraceRecord where
  queueTask : UInt64
  t0Ns : UInt64
  t1Ns : UInt64
  t2Ns : UInt64
  t3Ns : UInt64
  t4Ns : UInt64
deriving DecidableEq, Repr

def rknpuSubmitTraceCapacity : Nat := 1024

/-- The latencies that a successful call reports. -/
def submitRecord (taskId : RknpuQueueTaskId) (latency : SubmitLatencyTrace) (timeNs : UInt64) : RknpuSubmitTraceRecord where
  queueTask := taskId
  t0Ns := latency.t0Ns
  t1Ns := latency.t1Ns
  t2Ns := latency.t2Ns
  t3Ns := latency.t3Ns
  t4Ns := timeNs

/-- The record of `enqueue_submit`. -/
def enqueueRecord (taskId : RknpuQueueTaskId) (submit : RknpuSubmit) (tasks : List RknpuTask) (timeNs : UInt64) :
    RknpuScheduleTraceRecord where
  timestampNs := timeNs
  queueTask := taskId
  priority := submit.priority
  eventType := rknpuScheduleEventEnqueue
  opIdx := (tasks.head?.map (·.opIdx)).getD 0
  taskIndex := 0
  coreSlot := 0xFFFFFFFF
  laneSlot := 0xFFFFFFFF

/-- A record of `dispatch_idle_cores`. -/
def dispatchRecord (eventType : UInt32) (setup : DispatchSetup) (timeNs workerCycle : UInt64) :
    RknpuScheduleTraceRecord where
  timestampNs := timeNs
  queueTask := setup.binding.taskId
  priority := setup.priority
  eventType := eventType
  opIdx := setup.opIdx
  taskIndex := setup.binding.taskIndex
  coreSlot := UInt32.ofNat setup.coreSlot
  laneSlot := UInt32.ofNat setup.binding.laneSlot
  dispatchSource := setup.dispatchSource.toUInt32
  readyPriority := setup.readyPriority
  workerCycle := workerCycle

/-- The record of one turn of the harvest loop, if the core is bound and the submit is live. -/
def completeRecord {W : Type} (s : NpuSchedulerState W) (completion : CoreCompletion) (timeNs workerResumeNs workerCycle : UInt64)
    (harvestedCores : Nat) : List RknpuScheduleTraceRecord :=
  match s.coreBinding[completion.coreSlot.toNat]? with
  | none => []
  | some binding =>
      match s.tasks[binding.taskId]? with
      | none => []
      | some task =>
          [{ timestampNs := timeNs
             queueTask := binding.taskId
             priority := task.submitMeta.priority
             eventType := rknpuScheduleEventComplete
             opIdx := (task.tasks[binding.taskIndex.toNat]?.map (·.opIdx)).getD 0
             taskIndex := binding.taskIndex
             coreSlot := UInt32.ofNat completion.coreSlot.toNat
             laneSlot := UInt32.ofNat binding.laneSlot
             irqTimestampNs := completion.irqTimestampNs
             workerResumeNs
             workerCycle
             harvestedCores := UInt32.ofNat harvestedCores }]

/-- The records of the harvest loop. -/
def completeRecords {W : Type} (workerResumeNs workerCycle : UInt64) (harvestedCores : Nat) :
    List (CoreCompletion × UInt64) → NpuSchedulerState W → List RknpuScheduleTraceRecord
  | [], _ => []
  | (completion, timeNs) :: completions, s =>
      completeRecord s completion timeNs workerResumeNs workerCycle harvestedCores ++
        completeRecords workerResumeNs workerCycle harvestedCores completions (s.harvestCompletion completion timeNs).2

/-! ## States -/

/-- Where a thread stands between the sections of its call. -/
inductive ThreadPc where
  /-- `handle_submit_ioctl` has taken `t0`. -/
  | entered (t0Ns : UInt64)
  /-- The submit is enqueued, and its record is to be pushed. -/
  | enqueued (record : RknpuScheduleTraceRecord)
  /-- The reply is copied back, and the latencies are to be pushed. -/
  | leaving (record : RknpuSubmitTraceRecord)
deriving DecidableEq

/-- Where the worker stands between a decision and its outcome. -/
inductive DispatchPc where
  | idle
  /-- The time before `submit_ioctrl_step` is taken. -/
  | asked (timeNs : UInt64)
  /-- The record of the failure is made, and `fail_dispatch` is next. -/
  | failing
deriving DecidableEq

structure Timed where
  clients : Clients
  /-- The last reading of the clock. -/
  now : UInt64
  threads : Std.ExtTreeMap Nat ThreadPc compare
  dispatch : DispatchPc
  /-- The completions that the harvest has turned to, with their times; the worker has the lock when there are some. -/
  harvesting : List (CoreCompletion × UInt64)
  /-- The records that the worker has still to push. -/
  records : List RknpuScheduleTraceRecord
  schedule : ScheduleTrace
  submits : BoundedLog RknpuSubmitTraceRecord

/-- The clock reads at least `start`. -/
def Timed.init (start : UInt64) : Timed where
  clients := .init
  now := start
  threads := ∅
  dispatch := .idle
  harvesting := []
  records := []
  schedule := .new
  submits := .empty

/-! ## Actions -/

inductive TimedAct where
  /-- `handle_submit_ioctl` takes `t0`. -/
  | ioctl (thread : Nat) (timeNs : UInt64)
  /-- The prologue up to the section of `enqueue_submit`, which takes `t1`. -/
  | enter (thread : Nat) (header : Except RknpuServiceError RknpuSubmit)
      (tasks : Except RknpuServiceError (List RknpuTask)) (timeNs : UInt64)
  | recordEnqueue (thread : Nat)
  | lookup (thread : Nat)
  | wait (thread : Nat) (answer : Except RknpuServiceError Unit)
  | abort (thread : Nat)
  | take (thread : Nat)
  /-- The epilogue; on success it takes `t4`. -/
  | copyBack (thread : Nat) (tasksCopy headerCopy : Except RknpuServiceError Unit) (timeNs : UInt64)
  | recordSubmit (thread : Nat)
  | decide
  /-- The time before `submit_ioctrl_step`. -/
  | submitStep (timeNs : UInt64)
  | launch (workerCycle : UInt64)
  /-- `comfirm_write_all` or the driver has failed. -/
  | refuse (timeNs workerCycle : UInt64)
  | fail (err : RknpuError)
  /-- The harvest turns to a completion and takes its time. -/
  | completion (completion : CoreCompletion) (timeNs : UInt64)
  | harvest (workerResumeNs workerCycle : UInt64)
  | wake (deviceError : Bool)
  /-- The worker pushes its next record. -/
  | record
  | signal
  | configure (eventMask : UInt32)
  | resetSubmits

namespace Timed

/-- A reading of the clock. -/
def read (s : Timed) (timeNs : UInt64) : Option Timed := if s.now ≤ timeNs then some { s with now := timeNs } else none

/-- A step of the calls and the scheduler below. -/
def lower (s : Timed) (a : ClientAct) : Option Timed := (s.clients.step a).map fun clients => { s with clients }

/-- A step of a thread that has no record to push. -/
def callStep (s : Timed) (thread : Nat) (a : CallAct) : Option Timed :=
  if s.threads[thread]? = none then s.lower (.call thread a) else none

/-- A step of a thread that enters a section of the scheduler. -/
def lockedCallStep (s : Timed) (thread : Nat) (a : CallAct) : Option Timed :=
  if s.harvesting = [] then s.callStep thread a else none

/-- The worker is in no harvest and has pushed its records. -/
def workerReady (s : Timed) : Bool := s.harvesting.isEmpty && s.records.isEmpty

def enter (s : Timed) (thread : Nat) (header : Except RknpuServiceError RknpuSubmit)
    (tasks : Except RknpuServiceError (List RknpuTask)) (timeNs : UInt64) (t0Ns : UInt64) : Option Timed :=
  match acceptSubmit header tasks with
  | .error _ =>
      (s.lower (.enter thread header tasks t0Ns timeNs)).map fun s => { s with threads := s.threads.erase thread }
  | .ok (submit, tasks') =>
      if s.harvesting = [] then
        (s.read timeNs).bind fun s =>
          let record := enqueueRecord s.clients.sys.nextQueueTaskId submit tasks' timeNs
          (s.lower (.enter thread header tasks t0Ns timeNs)).map fun s =>
            { s with threads := s.threads.insert thread (.enqueued record) }
      else none

def copyBack (s : Timed) (thread : Nat) (tasksCopy headerCopy : Except RknpuServiceError Unit) (timeNs : UInt64)
    (taskId : RknpuQueueTaskId) (finished : CompletedSubmit) : Option Timed :=
  (s.callStep thread (.copyBack tasksCopy headerCopy)).bind fun s =>
    match (Outcome.replied finished tasksCopy headerCopy).result with
    | .error _ => some s
    | .ok _ =>
        (s.read timeNs).map fun s =>
          { s with threads := s.threads.insert thread (.leaving (submitRecord taskId finished.latency timeNs)) }

def push (s : Timed) (record : RknpuScheduleTraceRecord) : Timed :=
  { s with schedule := s.schedule.recordScheduleEvent record }

def step (s : Timed) : TimedAct → Option Timed
  | .ioctl thread timeNs =>
      if s.clients.outside thread ∧ s.threads[thread]? = none then
        (s.read timeNs).map fun s => { s with threads := s.threads.insert thread (.entered timeNs) }
      else none
  | .enter thread header tasks timeNs =>
      match s.threads[thread]? with
      | some (.entered t0Ns) => s.enter thread header tasks timeNs t0Ns
      | _ => none
  | .recordEnqueue thread =>
      match s.threads[thread]? with
      | some (.enqueued record) => some { s.push record with threads := s.threads.erase thread }
      | _ => none
  | .lookup thread => s.lockedCallStep thread .lookup
  | .wait thread answer => s.callStep thread (.wait answer)
  | .abort thread => s.lockedCallStep thread .abort
  | .take thread => s.lockedCallStep thread .take
  | .copyBack thread tasksCopy headerCopy timeNs =>
      match s.clients.calls[thread]? with
      | some ⟨_, _, .copying taskId finished⟩ => s.copyBack thread tasksCopy headerCopy timeNs taskId finished
      | _ => none
  | .recordSubmit thread =>
      match s.threads[thread]? with
      | some (.leaving record) =>
          some { s with submits := s.submits.push rknpuSubmitTraceCapacity record, threads := s.threads.erase thread }
      | _ => none
  | .decide => if s.workerReady then s.lower (.worker .decide) else none
  | .submitStep timeNs =>
      match s.clients.sys.worker, s.dispatch with
      | .dispatching _, .idle => (s.read timeNs).map fun s => { s with dispatch := .asked timeNs }
      | _, _ => none
  | .launch workerCycle =>
      match s.clients.sys.worker, s.dispatch with
      | .dispatching setup, .asked timeNs =>
          (s.lower (.worker (.launch timeNs))).map fun s =>
            { s with
              dispatch := .idle
              records := [dispatchRecord rknpuScheduleEventDispatch setup timeNs workerCycle] }
      | _, _ => none
  | .refuse timeNs workerCycle =>
      match s.clients.sys.worker with
      | .dispatching setup =>
          if s.dispatch = .failing then none
          else
            (s.read timeNs).map fun s =>
              { s with
                dispatch := .failing
                records := [dispatchRecord rknpuScheduleEventFailed setup timeNs workerCycle] }
      | _ => none
  | .fail err =>
      if s.dispatch = .failing ∧ s.workerReady then
        (s.lower (.worker (.fail err))).map fun s => { s with dispatch := .idle }
      else none
  | .completion completion timeNs =>
      if s.clients.sys.worker = .free ∧ s.clients.signals = [] ∧ s.records = [] then
        (s.read timeNs).map fun s => { s with harvesting := s.harvesting ++ [(completion, timeNs)] }
      else none
  | .harvest workerResumeNs workerCycle =>
      -- Without completions `harvest_completed_cores` returns before the section.
      if s.harvesting ≠ [] ∧ s.records = [] then
        let records := completeRecords workerResumeNs workerCycle s.harvesting.length s.harvesting s.clients.sys.state
        (s.lower (.worker (.harvest s.harvesting))).map fun s => { s with harvesting := [], records }
      else none
  | .wake deviceError => if s.workerReady then s.lower (.worker (.wake deviceError)) else none
  | .record =>
      match s.records with
      | [] => none
      | record :: records => some { s.push record with records }
  | .signal => s.lower .signal
  | .configure eventMask => some { s with schedule := s.schedule.configureScheduleTrace eventMask }
  | .resetSubmits => some { s with submits := .empty }

end Timed

def timed (start : UInt64) : Machine Timed TimedAct := ⟨.init start, Timed.step⟩

/-- What one step does. -/
inductive Timed.Step (s : Timed) : TimedAct → Timed → Prop where
  | ioctl {thread : Nat} {timeNs : UInt64} :
      s.threads[thread]? = none → s.now ≤ timeNs →
      Step s (.ioctl thread timeNs)
        { s with now := timeNs, threads := s.threads.insert thread (.entered timeNs) }
  | refused {thread : Nat} {header : Except RknpuServiceError RknpuSubmit}
      {tasks : Except RknpuServiceError (List RknpuTask)} {t0Ns timeNs : UInt64} {err : RknpuServiceError} {c : Clients} :
      s.threads[thread]? = some (.entered t0Ns) → acceptSubmit header tasks = .error err →
      s.clients.step (.enter thread header tasks t0Ns timeNs) = some c →
      Step s (.enter thread header tasks timeNs) { s with clients := c, threads := s.threads.erase thread }
  | enter {thread : Nat} {header : Except RknpuServiceError RknpuSubmit}
      {tasks : Except RknpuServiceError (List RknpuTask)} {t0Ns timeNs : UInt64} {submit : RknpuSubmit}
      {tasks' : List RknpuTask} {c : Clients} :
      s.threads[thread]? = some (.entered t0Ns) → acceptSubmit header tasks = .ok (submit, tasks') →
      s.harvesting = [] → s.now ≤ timeNs → s.clients.step (.enter thread header tasks t0Ns timeNs) = some c →
      Step s (.enter thread header tasks timeNs)
        { s with
          clients := c
          now := timeNs
          threads := s.threads.insert thread
            (.enqueued (enqueueRecord s.clients.sys.nextQueueTaskId submit tasks' timeNs)) }
  | recordEnqueue {thread : Nat} {record : RknpuScheduleTraceRecord} :
      s.threads[thread]? = some (.enqueued record) →
      Step s (.recordEnqueue thread) { s.push record with threads := s.threads.erase thread }
  | call {a : TimedAct} {thread : Nat} {act : CallAct} {c : Clients} :
      s.threads[thread]? = none → s.clients.step (.call thread act) = some c → Step s a { s with clients := c }
  | copyBack {thread : Nat} {tasksCopy headerCopy : Except RknpuServiceError Unit} {timeNs : UInt64}
      {submit : RknpuSubmit} {tasks : List RknpuTask} {taskId : RknpuQueueTaskId} {finished : CompletedSubmit}
      {value : Nat} {c : Clients} :
      s.threads[thread]? = none → s.clients.calls[thread]? = some ⟨submit, tasks, .copying taskId finished⟩ →
      (Outcome.replied finished tasksCopy headerCopy).result = .ok value → s.now ≤ timeNs →
      s.clients.step (.call thread (.copyBack tasksCopy headerCopy)) = some c →
      Step s (.copyBack thread tasksCopy headerCopy timeNs)
        { s with
          clients := c
          now := timeNs
          threads := s.threads.insert thread (.leaving (submitRecord taskId finished.latency timeNs)) }
  | recordSubmit {thread : Nat} {record : RknpuSubmitTraceRecord} :
      s.threads[thread]? = some (.leaving record) →
      Step s (.recordSubmit thread)
        { s with submits := s.submits.push rknpuSubmitTraceCapacity record, threads := s.threads.erase thread }
  | decide {c : Clients} :
      s.harvesting = [] → s.records = [] → s.clients.step (.worker .decide) = some c →
      Step s .decide { s with clients := c }
  | submitStep {setup : DispatchSetup} {timeNs : UInt64} :
      s.clients.sys.worker = .dispatching setup → s.dispatch = .idle → s.now ≤ timeNs →
      Step s (.submitStep timeNs) { s with now := timeNs, dispatch := .asked timeNs }
  | launch {setup : DispatchSetup} {timeNs workerCycle : UInt64} {c : Clients} :
      s.clients.sys.worker = .dispatching setup → s.dispatch = .asked timeNs →
      s.clients.step (.worker (.launch timeNs)) = some c →
      Step s (.launch workerCycle)
        { s with
          clients := c
          dispatch := .idle
          records := [dispatchRecord rknpuScheduleEventDispatch setup timeNs workerCycle] }
  | refuse {setup : DispatchSetup} {timeNs workerCycle : UInt64} :
      s.clients.sys.worker = .dispatching setup → s.dispatch ≠ .failing → s.now ≤ timeNs →
      Step s (.refuse timeNs workerCycle)
        { s with
          now := timeNs
          dispatch := .failing
          records := [dispatchRecord rknpuScheduleEventFailed setup timeNs workerCycle] }
  | fail {err : RknpuError} {c : Clients} :
      s.dispatch = .failing → s.records = [] → s.clients.step (.worker (.fail err)) = some c →
      Step s (.fail err) { s with clients := c, dispatch := .idle }
  | completion {completion : CoreCompletion} {timeNs : UInt64} :
      s.clients.sys.worker = .free → s.records = [] → s.now ≤ timeNs →
      Step s (.completion completion timeNs)
        { s with now := timeNs, harvesting := s.harvesting ++ [(completion, timeNs)] }
  | harvest {workerResumeNs workerCycle : UInt64} {c : Clients} :
      s.records = [] → s.clients.step (.worker (.harvest s.harvesting)) = some c →
      Step s (.harvest workerResumeNs workerCycle)
        { s with
          clients := c
          harvesting := []
          records := completeRecords workerResumeNs workerCycle s.harvesting.length s.harvesting s.clients.sys.state }
  | wake {deviceError : Bool} {c : Clients} :
      s.harvesting = [] → s.clients.step (.worker (.wake deviceError)) = some c →
      Step s (.wake deviceError) { s with clients := c }
  | record {record : RknpuScheduleTraceRecord} {records : List RknpuScheduleTraceRecord} :
      s.records = record :: records → Step s .record { s.push record with records }
  | signal {c : Clients} : s.clients.step .signal = some c → Step s .signal { s with clients := c }
  | configure (eventMask : UInt32) :
      Step s (.configure eventMask) { s with schedule := s.schedule.configureScheduleTrace eventMask }
  | resetSubmits : Step s .resetSubmits { s with submits := .empty }

namespace Timed

variable {s s' : Timed}

theorem read_eq_some {timeNs : UInt64} (h : s.read timeNs = some s') :
    s.now ≤ timeNs ∧ s' = { s with now := timeNs } := by
  obtain ⟨hle, h⟩ := Option.ite_none_right_eq_some.mp h
  cases h
  exact ⟨hle, rfl⟩

theorem lower_eq_some {a : ClientAct} (h : s.lower a = some s') :
    ∃ c, s.clients.step a = some c ∧ s' = { s with clients := c } := by
  obtain ⟨c, hc, rfl⟩ := Option.map_eq_some_iff.mp h
  exact ⟨c, hc, rfl⟩

theorem workerReady_iff : s.workerReady = true ↔ s.harvesting = [] ∧ s.records = [] := by
  simp [workerReady]

/-- A step of a thread that has no record to push. -/
theorem step_of_callStep {a : TimedAct} {thread : Nat} {act : CallAct} (h : s.callStep thread act = some s') :
    s.Step a s' := by
  obtain ⟨hthread, h⟩ := Option.ite_none_right_eq_some.mp h
  obtain ⟨c, hc, rfl⟩ := lower_eq_some h
  exact .call hthread hc

theorem step_of_lockedCallStep {a : TimedAct} {thread : Nat} {act : CallAct}
    (h : s.lockedCallStep thread act = some s') : s.Step a s' :=
  step_of_callStep (Option.ite_none_right_eq_some.mp h).2

theorem step_of_enter {thread : Nat} {header : Except RknpuServiceError RknpuSubmit}
    {tasks : Except RknpuServiceError (List RknpuTask)} {timeNs t0Ns : UInt64}
    (hthread : s.threads[thread]? = some (.entered t0Ns)) (h : s.enter thread header tasks timeNs t0Ns = some s') :
    s.Step (.enter thread header tasks timeNs) s' := by
  unfold Timed.enter at h
  split at h
  · rename_i err haccept
    obtain ⟨s₁, h₁, rfl⟩ := Option.map_eq_some_iff.mp h
    obtain ⟨c, hc, rfl⟩ := lower_eq_some h₁
    exact .refused hthread haccept hc
  · rename_i submit tasks' haccept
    obtain ⟨hlock, h⟩ := Option.ite_none_right_eq_some.mp h
    obtain ⟨s₁, h₁, h⟩ := Option.bind_eq_some_iff.mp h
    obtain ⟨hle, rfl⟩ := read_eq_some h₁
    obtain ⟨s₂, h₂, rfl⟩ := Option.map_eq_some_iff.mp h
    obtain ⟨c, hc, rfl⟩ := lower_eq_some h₂
    exact .enter hthread haccept hlock hle hc

theorem step_of_copyBack {thread : Nat} {tasksCopy headerCopy : Except RknpuServiceError Unit} {timeNs : UInt64}
    {submit : RknpuSubmit} {tasks : List RknpuTask} {taskId : RknpuQueueTaskId} {finished : CompletedSubmit}
    (hcall : s.clients.calls[thread]? = some ⟨submit, tasks, .copying taskId finished⟩)
    (h : s.copyBack thread tasksCopy headerCopy timeNs taskId finished = some s') :
    s.Step (.copyBack thread tasksCopy headerCopy timeNs) s' := by
  obtain ⟨s₁, h₁, h⟩ := Option.bind_eq_some_iff.mp h
  split at h
  · cases h
    exact step_of_callStep h₁
  · rename_i value hresult
    obtain ⟨hthread, h₁⟩ := Option.ite_none_right_eq_some.mp h₁
    obtain ⟨c, hc, rfl⟩ := lower_eq_some h₁
    obtain ⟨s₂, h₂, rfl⟩ := Option.map_eq_some_iff.mp h
    obtain ⟨hle, rfl⟩ := read_eq_some h₂
    exact .copyBack hthread hcall hresult hle hc

theorem step_cases {a : TimedAct} (h : s.step a = some s') : s.Step a s' := by
  cases a with
  | ioctl thread timeNs =>
      obtain ⟨⟨_, hthread⟩, h⟩ := Option.ite_none_right_eq_some.mp h
      obtain ⟨s₁, h₁, rfl⟩ := Option.map_eq_some_iff.mp h
      obtain ⟨hle, rfl⟩ := read_eq_some h₁
      exact .ioctl hthread hle
  | enter thread header tasks timeNs =>
      simp only [step] at h
      split at h
      · exact step_of_enter ‹_› h
      · cases h
  | recordEnqueue thread =>
      simp only [step] at h
      split at h
      · cases h
        exact .recordEnqueue ‹_›
      · cases h
  | lookup thread => exact step_of_lockedCallStep h
  | wait thread answer => exact step_of_callStep h
  | abort thread => exact step_of_lockedCallStep h
  | take thread => exact step_of_lockedCallStep h
  | copyBack thread tasksCopy headerCopy timeNs =>
      simp only [step] at h
      split at h
      · exact step_of_copyBack ‹_› h
      · cases h
  | recordSubmit thread =>
      simp only [step] at h
      split at h
      · cases h
        exact .recordSubmit ‹_›
      · cases h
  | decide =>
      obtain ⟨hready, h⟩ := Option.ite_none_right_eq_some.mp h
      obtain ⟨c, hc, rfl⟩ := lower_eq_some h
      exact .decide (workerReady_iff.mp hready).1 (workerReady_iff.mp hready).2 hc
  | submitStep timeNs =>
      simp only [step] at h
      split at h
      · rename_i hworker hidle
        obtain ⟨s₁, h₁, rfl⟩ := Option.map_eq_some_iff.mp h
        obtain ⟨hle, rfl⟩ := read_eq_some h₁
        exact .submitStep hworker hidle hle
      · cases h
  | launch workerCycle =>
      simp only [step] at h
      split at h
      · rename_i hworker hasked
        obtain ⟨s₁, h₁, rfl⟩ := Option.map_eq_some_iff.mp h
        obtain ⟨c, hc, rfl⟩ := lower_eq_some h₁
        exact .launch hworker hasked hc
      · cases h
  | refuse timeNs workerCycle =>
      simp only [step] at h
      split at h
      · rename_i hworker
        obtain ⟨hfailing, h⟩ := Option.ite_none_left_eq_some.mp h
        obtain ⟨s₁, h₁, rfl⟩ := Option.map_eq_some_iff.mp h
        obtain ⟨hle, rfl⟩ := read_eq_some h₁
        exact .refuse hworker hfailing hle
      · cases h
  | fail err =>
      obtain ⟨⟨hfailing, hready⟩, h⟩ := Option.ite_none_right_eq_some.mp h
      obtain ⟨s₁, h₁, rfl⟩ := Option.map_eq_some_iff.mp h
      obtain ⟨c, hc, rfl⟩ := lower_eq_some h₁
      exact .fail hfailing (workerReady_iff.mp hready).2 hc
  | completion completion timeNs =>
      obtain ⟨⟨hworker, _, hrecords⟩, h⟩ := Option.ite_none_right_eq_some.mp h
      obtain ⟨s₁, h₁, rfl⟩ := Option.map_eq_some_iff.mp h
      obtain ⟨hle, rfl⟩ := read_eq_some h₁
      exact .completion hworker hrecords hle
  | harvest workerResumeNs workerCycle =>
      obtain ⟨⟨_, hrecords⟩, h⟩ := Option.ite_none_right_eq_some.mp h
      obtain ⟨s₁, h₁, rfl⟩ := Option.map_eq_some_iff.mp h
      obtain ⟨c, hc, rfl⟩ := lower_eq_some h₁
      exact .harvest hrecords hc
  | wake deviceError =>
      obtain ⟨hready, h⟩ := Option.ite_none_right_eq_some.mp h
      obtain ⟨c, hc, rfl⟩ := lower_eq_some h
      exact .wake (workerReady_iff.mp hready).1 hc
  | record =>
      simp only [step] at h
      split at h
      · cases h
      · cases h
        exact .record ‹_›
  | signal =>
      obtain ⟨c, hc, rfl⟩ := lower_eq_some h
      exact .signal hc
  | configure eventMask =>
      cases h
      exact .configure eventMask
  | resetSubmits =>
      cases h
      exact .resetSubmits

end Timed

end Rknpu.Service
