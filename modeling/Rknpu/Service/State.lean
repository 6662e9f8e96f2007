import Rknpu.Lib.Buckets
import Rknpu.Queue.Life

/-!
# The scheduler state and its locked sections

A translation of `NpuSchedulerState` (`service/scheduler.rs`) and of the sections that run under its
mutex. Each definition is one critical section, or a function called inside one: it takes the state and
returns the new state together with what the code returns. Time stamps and device outcomes are arguments.
-/

namespace Rknpu.Service

open Queue

/-! ## Errors -/

/-- `RknpuServiceError`. -/
inductive RknpuServiceError where
  | invalidInput
  | invalidData
  | notFound
  | busy
  | interrupted
  | badIoctl
  | driver (err : RknpuError)
  | internal
deriving DecidableEq, Repr

/-- The error recorded in a submit for a service failure. -/
def RknpuServiceError.toDriverError : RknpuServiceError → RknpuError
  | .invalidInput | .invalidData | .badIoctl => .invalidParameter
  | .notFound => .invalidHandle
  | .busy => .deviceBusy
  | .interrupted => .interrupted
  | .driver err => err
  | .internal => .internalError

/-! ## Data -/

/-- A physical core works on this task of this submit. -/
structure CoreRunBinding where
  taskId : RknpuQueueTaskId
  laneSlot : LaneSlot
  taskIndex : UInt32
deriving DecidableEq, Repr

def CoreRunBinding.slot (binding : CoreRunBinding) (coreSlot : Nat) : Slot where
  core := coreSlot
  laneSlot := binding.laneSlot
  taskIndex := binding.taskIndex

/-- `RKNPU_DISPATCH_SOURCE_*`. -/
inductive DispatchSource where
  | none
  | ready
  | running
deriving DecidableEq, Repr

/-- `RKNPU_SCHEDULE_TRACE_NO_PRIORITY`. -/
def rknpuScheduleTraceNoPriority : Int32 := Int32.maxValue

/-- Arguments of one driver call. -/
structure DispatchSetup where
  coreSlot : Nat
  binding : CoreRunBinding
  submitFlags : UInt32
  taskTotal : UInt32
  taskArrayDmaAddress : UInt64
  task : RknpuTask
  priority : Int32
  opIdx : UInt32
  dispatchSource : DispatchSource
  readyPriority : Int32
deriving DecidableEq, Repr

/-- `CoreCompletion` of `status/mod.rs`. -/
structure CoreCompletion where
  coreSlot : UInt8
  observedIrqStatus : UInt32
  irqTimestampNs : UInt64
deriving DecidableEq, Repr

/-- What the ioctl gets back. -/
structure CompletedSubmit where
  submit : RknpuSubmit
  tasks : List RknpuTask
  lastError : Option RknpuError
  latency : SubmitLatencyTrace
deriving DecidableEq, Repr

abbrev TaskMap : Type := Std.ExtTreeMap RknpuQueueTaskId RknpuQueueTask compare

abbrev CoreMap : Type := Std.ExtTreeMap Nat CoreRunBinding compare

abbrev Buckets : Type := PrioBuckets Int32 RknpuQueueTaskId

/-- The state behind the scheduler mutex, over the platform's type of waiters. -/
structure NpuSchedulerState (W : Type) where
  tasks : TaskMap
  ready : Buckets
  running : Buckets
  coreBinding : CoreMap
  complete : TaskMap
  waiters : Std.ExtTreeMap RknpuQueueTaskId W compare
  workerStarted : Bool

namespace NpuSchedulerState

variable {W : Type}

def new : NpuSchedulerState W where
  tasks := ∅
  ready := ∅
  running := ∅
  coreBinding := ∅
  complete := ∅
  waiters := ∅
  workerStarted := false

def hasLiveWork (s : NpuSchedulerState W) : Bool := !s.tasks.isEmpty

def hasInflight (s : NpuSchedulerState W) : Bool := !s.coreBinding.isEmpty

/-! ## Enqueue -/

/-- `fetch_add` on `NEXT_QUEUE_TASK_ID` returns the old value; the id counter is passed in and out. -/
def enqueueTask (s : NpuSchedulerState W) (nextQueueTaskId : UInt64) (queued : RknpuQueuedSubmit) :
    RknpuQueueTaskId × UInt64 × NpuSchedulerState W :=
  let taskId := nextQueueTaskId
  let task := RknpuQueueTask.new taskId queued
  (taskId, nextQueueTaskId + 1,
    { s with
      tasks := s.tasks.insert taskId task
      ready := s.ready.push task.submitMeta.priority taskId })

/-- The locked section of `enqueue_submit`. -/
def enqueueSubmit (s : NpuSchedulerState W) (nextQueueTaskId : UInt64) (queued : RknpuQueuedSubmit)
    (waiter : W) (timeNs : UInt64) : RknpuQueueTaskId × UInt64 × NpuSchedulerState W :=
  let (taskId, nextQueueTaskId, s) := { s with workerStarted := true }.enqueueTask nextQueueTaskId queued
  (taskId, nextQueueTaskId,
    { s with
      tasks := s.tasks.modify taskId (·.markEnqueued timeNs)
      waiters := s.waiters.insert taskId waiter })

/-! ## Candidates -/

def idleCores (s : NpuSchedulerState W) : List Nat :=
  (List.range npuMaxCores).filter fun coreSlot => !s.coreBinding.contains coreSlot

/-- The test both candidate searches make. -/
def canDispatch (s : NpuSchedulerState W) (coreSlot : Nat) (taskId : RknpuQueueTaskId) : Bool :=
  match s.tasks[taskId]? with
  | none => false
  | some task => task.allowsCore coreSlot && task.hasDispatchableTask

/-- The body of `find_running_candidate_for_core` for one id. -/
def runningCandidate (s : NpuSchedulerState W) (coreSlot : Nat) (taskId : RknpuQueueTaskId) :
    Option CoreRunBinding :=
  match s.tasks[taskId]? with
  | none => none
  | some task =>
      if !task.allowsCore coreSlot then none
      else task.nextDispatchableTask.map fun e => { taskId, laneSlot := e.1, taskIndex := e.2 }

def findRunningCandidateForCore (s : NpuSchedulerState W) (coreSlot : Nat) : Option CoreRunBinding :=
  s.running.findFirst (s.runningCandidate coreSlot)

def hasRunningCandidateForAny (s : NpuSchedulerState W) (idleCores : List Nat) : Bool :=
  idleCores.any fun coreSlot => (s.findRunningCandidateForCore coreSlot).isSome

/-- Written to the trace only. -/
def bestReadyPriorityForCore (s : NpuSchedulerState W) (coreSlot : Nat) : Option Int32 :=
  s.ready.toList.findSome? fun e => if e.2.any (s.canDispatch coreSlot) then some e.1 else none

def bestReadyPriorityForAny (s : NpuSchedulerState W) (idleCores : List Nat) : Option Int32 :=
  (idleCores.filterMap s.bestReadyPriorityForCore).min?

def popReadyCandidateForCore (s : NpuSchedulerState W) (coreSlot : Nat) :
    Option RknpuQueueTaskId × NpuSchedulerState W :=
  let (taskId, ready) := s.ready.popFirst (s.canDispatch coreSlot)
  (taskId, { s with ready })

/-! ## Dispatch -/

/-- Bind a task to a core. The task's status is cleared before the reservation is checked. -/
def prepareDispatch (s : NpuSchedulerState W) (coreSlot : Nat) (binding : CoreRunBinding) :
    Option DispatchSetup × NpuSchedulerState W :=
  if s.coreBinding.contains coreSlot then (none, s)
  else
    match s.tasks[binding.taskId]? with
    | none => (none, s)
    | some task =>
        match (task.clearIntStatus binding.taskIndex).tasks[binding.taskIndex.toNat]? with
        | none => (none, s)
        | some taskSnapshot =>
            match (task.clearIntStatus binding.taskIndex).reserveDispatch binding.laneSlot binding.taskIndex with
            | (false, task) => (none, { s with tasks := s.tasks.insert binding.taskId task })
            | (true, task) =>
                (some {
                    coreSlot
                    binding
                    submitFlags := task.submitMeta.hardwareFlags
                    taskTotal := UInt32.ofNat task.tasks.length
                    taskArrayDmaAddress := task.submitMeta.taskArrayDmaAddress
                    task := taskSnapshot
                    priority := task.submitMeta.priority
                    opIdx := taskSnapshot.opIdx
                    dispatchSource := .none
                    readyPriority := rknpuScheduleTraceNoPriority },
                  { s with
                    tasks := s.tasks.insert binding.taskId task
                    coreBinding := s.coreBinding.insert coreSlot binding })

def prepareDispatchFromRunning (s : NpuSchedulerState W) (coreSlot : Nat) :
    Option DispatchSetup × NpuSchedulerState W :=
  match s.findRunningCandidateForCore coreSlot with
  | none => (none, s)
  | some binding => s.prepareDispatch coreSlot binding

def promoteReadyAndPrepareDispatch (s : NpuSchedulerState W) (coreSlot : Nat) :
    Option DispatchSetup × NpuSchedulerState W :=
  match s.popReadyCandidateForCore coreSlot with
  | (none, s) => (none, s)
  | (some taskId, s) =>
      match s.tasks[taskId]? with
      | none => (none, s)
      | some task =>
          let s := { s with running := s.running.push task.submitMeta.priority taskId }
          match task.nextDispatchableTask with
          | none => (none, s)
          | some (laneSlot, taskIndex) => s.prepareDispatch coreSlot { taskId, laneSlot, taskIndex }

/-- The loop of the locked decision over the idle cores that are left. -/
def dispatchLoop (runningHasCandidate : Bool) (readyPriority : Int32) :
    List Nat → NpuSchedulerState W → Option DispatchSetup × NpuSchedulerState W
  | [], s => (none, s)
  | coreSlot :: cores, s =>
      match s.prepareDispatchFromRunning coreSlot with
      | (some setup, s) => (some { setup with dispatchSource := .running, readyPriority }, s)
      | (none, s) =>
          if runningHasCandidate then dispatchLoop runningHasCandidate readyPriority cores s
          else
            let coreReadyPriority :=
              (s.bestReadyPriorityForCore coreSlot).getD rknpuScheduleTraceNoPriority
            match s.promoteReadyAndPrepareDispatch coreSlot with
            | (some setup, s) =>
                (some { setup with dispatchSource := .ready, readyPriority := coreReadyPriority }, s)
            | (none, s) => dispatchLoop runningHasCandidate readyPriority cores s

/-- One locked decision of `dispatch_idle_cores`. -/
def dispatchDecision (s : NpuSchedulerState W) : Option DispatchSetup × NpuSchedulerState W :=
  let idleCores := s.idleCores
  if idleCores.isEmpty then (none, s)
  else
    let runningHasCandidate := s.hasRunningCandidateForAny idleCores
    let readyPriority := (s.bestReadyPriorityForAny idleCores).getD rknpuScheduleTraceNoPriority
    dispatchLoop runningHasCandidate readyPriority idleCores s

/-- The locked section after an accepted dispatch: `t2` of the submit. -/
def markDispatched (s : NpuSchedulerState W) (taskId : RknpuQueueTaskId) (timeNs : UInt64) :
    NpuSchedulerState W :=
  { s with tasks := s.tasks.modify taskId (·.markFirstDispatch timeNs) }

/-! ## Completion -/

/-- File a submit under ready, running or complete. A terminal submit's id is returned. -/
def reclassifyTask (s : NpuSchedulerState W) (taskId : RknpuQueueTaskId) :
    Option RknpuQueueTaskId × NpuSchedulerState W :=
  let s := { s with ready := s.ready.remove taskId, running := s.running.remove taskId }
  match s.tasks[taskId]? with
  | none => (none, s)
  | some task =>
      let priority := task.submitMeta.priority
      if task.isTerminalSuccess || task.isTerminalFault then
        (some taskId, { s with
          tasks := s.tasks.erase taskId
          complete := s.complete.insert taskId task })
      else if task.hasRunningTasks then
        (none, { s with running := s.running.push priority taskId })
      else if task.hasDispatchableTask then
        (none, { s with ready := s.ready.push priority taskId })
      else (none, s)

/-- The locked section of `fail_dispatch`. -/
def failDispatch (s : NpuSchedulerState W) (coreSlot : Nat) (binding : CoreRunBinding) (err : RknpuError) :
    Option RknpuQueueTaskId × NpuSchedulerState W :=
  let s := { s with
    coreBinding := s.coreBinding.erase coreSlot
    tasks := s.tasks.modify binding.taskId (·.failDispatch binding.laneSlot err) }
  s.reclassifyTask binding.taskId

/-- One turn of the harvest loop. -/
def harvestCompletion (s : NpuSchedulerState W) (completion : CoreCompletion) (timeNs : UInt64) :
    Option RknpuQueueTaskId × NpuSchedulerState W :=
  let coreSlot := completion.coreSlot.toNat
  match s.coreBinding[coreSlot]? with
  | none => (none, s)
  | some binding =>
      let s := { s with coreBinding := s.coreBinding.erase coreSlot }
      match s.tasks[binding.taskId]? with
      | none => (none, s)
      | some task =>
          let task := task.recordCompletion binding.laneSlot binding.taskIndex completion.observedIrqStatus
          let s := { s with tasks := s.tasks.insert binding.taskId task }
          match s.reclassifyTask binding.taskId with
          | (none, s) => (none, s)
          | (some taskId, s) =>
              (some taskId, { s with complete := s.complete.modify taskId (·.markTerminal timeNs) })

/-- The locked section of `harvest_completed_cores`: the terminal ids in order, and the state. -/
def harvestCompletions : List (CoreCompletion × UInt64) → NpuSchedulerState W →
    List RknpuQueueTaskId × NpuSchedulerState W
  | [], s => ([], s)
  | (completion, timeNs) :: completions, s =>
      match s.harvestCompletion completion timeNs with
      | (none, s) => harvestCompletions completions s
      | (some taskId, s) =>
          let (taskIds, s) := harvestCompletions completions s
          (taskId :: taskIds, s)

/-- One turn of the loop of `wake_terminal_tasks`. -/
def wakeTask (s : NpuSchedulerState W) (prepareError : Bool) (taskId : RknpuQueueTaskId) :
    Option W × NpuSchedulerState W :=
  let s :=
    if prepareError then
      { s with complete := s.complete.modify taskId ({ · with lastError := some .memoryError }) }
    else s
  match s.waiters[taskId]? with
  | some waiter => (some waiter, s)
  | none => (none, { s with complete := s.complete.erase taskId })

/-- The locked section of `wake_terminal_tasks`: the waiters to complete. -/
def wakeTerminalTasks (prepareError : Bool) : List RknpuQueueTaskId → NpuSchedulerState W →
    List W × NpuSchedulerState W
  | [], s => ([], s)
  | taskId :: taskIds, s =>
      let (waiter, s) := s.wakeTask prepareError taskId
      let (waiters, s) := wakeTerminalTasks prepareError taskIds s
      (waiter.toList ++ waiters, s)

/-! ## The waiting side -/

/-- The locked section of `abort_wait`. -/
def abortWait (s : NpuSchedulerState W) (taskId : RknpuQueueTaskId) : NpuSchedulerState W :=
  let s := { s with waiters := s.waiters.erase taskId }
  if s.complete.contains taskId then { s with complete := s.complete.erase taskId }
  else
    let s := { s with tasks := s.tasks.modify taskId ({ · with lastError := some .interrupted }) }
    match s.reclassifyTask taskId with
    | (none, s) => s
    | (some _, s) => { s with complete := s.complete.erase taskId }

/-- `take_terminal_submit`. -/
def takeTerminalSubmit (s : NpuSchedulerState W) (taskId : RknpuQueueTaskId) :
    Except RknpuServiceError CompletedSubmit × NpuSchedulerState W :=
  match s.complete[taskId]? with
  | none => (.error .invalidData, s)
  | some task =>
      (.ok {
          submit := task.buildSubmit
          tasks := task.tasks
          lastError := task.lastError
          latency := task.latency },
        { s with complete := s.complete.erase taskId, waiters := s.waiters.erase taskId })

end NpuSchedulerState

end Rknpu.Service
