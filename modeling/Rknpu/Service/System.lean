import Rknpu.Lib.Machine
import Rknpu.Service.State

/-!
# The scheduler as a state machine

One action is one locked section. Submitting, aborting and taking may come from any thread at any time.
Decisions, dispatch results, harvests and wake-ups come from the single worker, whose position between
its critical sections is `WorkerPhase`: it does not harvest while a dispatch is being tried, and it wakes
the submits of a harvest or of a failed dispatch before it goes on.

The state carries the history of events. Nothing reads it; it is there to state properties of runs.
-/

namespace Rknpu.Service

open Queue

/-! ## Events -/

inductive Event where
  | enqueued (taskId : RknpuQueueTaskId) (queued : RknpuQueuedSubmit) (timeNs : UInt64)
  /-- An event in the life of one submit. -/
  | submit (taskId : RknpuQueueTaskId) (e : SubmitEvent)
  /-- `reclassify_task` moved the submit into `complete`; the core bindings at that moment. -/
  | moved (taskId : RknpuQueueTaskId) (coreBinding : List (Nat × CoreRunBinding))
deriving DecidableEq, Repr

/-! ## States -/

/-- Where the worker stands between two critical sections. -/
inductive WorkerPhase where
  | free
  /-- A decision was taken, the driver has not answered yet. -/
  | dispatching (setup : DispatchSetup)
  /-- Terminal submits are to be woken, after a cache invalidation if `prepareRead`. -/
  | waking (taskIds : List RknpuQueueTaskId) (prepareRead : Bool)
deriving DecidableEq, Repr

structure Sys (W : Type) where
  state : NpuSchedulerState W
  nextQueueTaskId : UInt64
  worker : WorkerPhase
  hist : List Event

variable {W : Type}

/-- `NEXT_QUEUE_TASK_ID` starts at 1. -/
def Sys.init : Sys W where
  state := NpuSchedulerState.new
  nextQueueTaskId := 1
  worker := .free
  hist := []

/-! ## Actions -/

inductive Act (W : Type) where
  /-- The payload is built by `RknpuQueuedSubmit::new`, with `t0` set by the ioctl. -/
  | enqueue (submit : RknpuSubmit) (tasks : List RknpuTask) (t0Ns : UInt64) (waiter : W) (timeNs : UInt64)
  | decide
  | launch (timeNs : UInt64)
  | fail (err : RknpuError)
  | harvest (completions : List (CoreCompletion × UInt64))
  | wake (deviceError : Bool)
  | abort (taskId : RknpuQueueTaskId)
  | take (taskId : RknpuQueueTaskId)
deriving Repr

/-- The sections that the worker runs. -/
def Act.isWorker : Act W → Bool
  | .decide | .launch _ | .fail _ | .harvest _ | .wake _ => true
  | .enqueue .. | .abort _ | .take _ => false

/-- The payload of `handle_submit_ioctl`. -/
def queuedSubmit (submit : RknpuSubmit) (tasks : List RknpuTask) (t0Ns : UInt64) : RknpuQueuedSubmit :=
  { RknpuQueuedSubmit.new submit tasks with latency.t0Ns := t0Ns }

namespace Sys

def enqueue (y : Sys W) (queued : RknpuQueuedSubmit) (waiter : W) (timeNs : UInt64) : Sys W :=
  let (taskId, nextQueueTaskId, state) := y.state.enqueueSubmit y.nextQueueTaskId queued waiter timeNs
  { y with state, nextQueueTaskId, hist := y.hist ++ [.enqueued taskId queued timeNs] }

/-- The event of a move into `complete`, with the bindings that `reclassify_task` saw. -/
def movedEvent (moved : Option RknpuQueueTaskId) (state : NpuSchedulerState W) : List Event :=
  moved.toList.map fun taskId => .moved taskId state.coreBinding.toList

def decide (y : Sys W) : Sys W :=
  match y.state.dispatchDecision with
  | (none, state) => { y with state }
  | (some setup, state) =>
      { y with
        state
        worker := .dispatching setup
        hist := y.hist ++ [.submit setup.binding.taskId (.reserved (setup.binding.slot setup.coreSlot))] }

def launch (y : Sys W) (setup : DispatchSetup) (timeNs : UInt64) : Sys W :=
  { y with
    state := y.state.markDispatched setup.binding.taskId timeNs
    worker := .free
    hist := y.hist ++
      [.submit setup.binding.taskId (.launched (setup.binding.slot setup.coreSlot) timeNs)] }

def fail (y : Sys W) (setup : DispatchSetup) (err : RknpuError) : Sys W :=
  let (moved, state) := y.state.failDispatch setup.coreSlot setup.binding err
  { y with
    state
    worker := .waking moved.toList false
    hist := y.hist ++ [.submit setup.binding.taskId (.failed (setup.binding.slot setup.coreSlot) err)] ++
      movedEvent moved state }

/-- The event of one completion: harvested for a live submit, orphaned after the submit has left. -/
def harvestEvent (state : NpuSchedulerState W) (completion : CoreCompletion) (timeNs : UInt64) : List Event :=
  match state.coreBinding[completion.coreSlot.toNat]? with
  | none => []
  | some binding =>
      let slot := binding.slot completion.coreSlot.toNat
      if state.tasks.contains binding.taskId then
        [.submit binding.taskId (.harvested slot completion.observedIrqStatus timeNs)]
      else [.submit binding.taskId (.orphaned slot completion.observedIrqStatus)]

/-- The history of the loop of `harvest_completed_cores`. -/
def harvestEvents : List (CoreCompletion × UInt64) → NpuSchedulerState W → List Event
  | [], _ => []
  | (completion, timeNs) :: completions, state =>
      let (moved, state') := state.harvestCompletion completion timeNs
      harvestEvent state completion timeNs ++ movedEvent moved state' ++ harvestEvents completions state'

def harvest (y : Sys W) (completions : List (CoreCompletion × UInt64)) : Sys W :=
  let (taskIds, state) := y.state.harvestCompletions completions
  { y with
    state
    worker := .waking taskIds true
    hist := y.hist ++ harvestEvents completions y.state }

/-- The events of one turn of the wake loop. -/
def wakeEvent (state : NpuSchedulerState W) (prepareError : Bool) (taskId : RknpuQueueTaskId) : List Event :=
  (if prepareError ∧ state.complete.contains taskId then [.submit taskId .readFailed] else []) ++
    if !state.complete.contains taskId then []
    else if state.waiters.contains taskId then [.submit taskId .woken] else [.submit taskId .dropped]

def wakeEvents (prepareError : Bool) : List RknpuQueueTaskId → NpuSchedulerState W → List Event
  | [], _ => []
  | taskId :: taskIds, state =>
      wakeEvent state prepareError taskId ++ wakeEvents prepareError taskIds (state.wakeTask prepareError taskId).2

def wake (y : Sys W) (taskIds : List RknpuQueueTaskId) (prepareError : Bool) : Sys W :=
  { y with
    state := (y.state.wakeTerminalTasks prepareError taskIds).2
    worker := .free
    hist := y.hist ++ wakeEvents prepareError taskIds y.state }

/-- The move that `reclassify_task` makes inside `abort_wait`, before the entry is removed again. -/
def abortMoved (state : NpuSchedulerState W) (taskId : RknpuQueueTaskId) : Option RknpuQueueTaskId :=
  if state.complete.contains taskId then none
  else
    ({ state with
        waiters := state.waiters.erase taskId
        tasks := state.tasks.modify taskId ({ · with lastError := some .interrupted }) }.reclassifyTask taskId).1

def abort (y : Sys W) (taskId : RknpuQueueTaskId) : Sys W :=
  let known := y.state.tasks.contains taskId || y.state.complete.contains taskId
  { y with
    state := y.state.abortWait taskId
    hist := y.hist ++ (if known then [.submit taskId .aborted] else []) ++
      movedEvent (abortMoved y.state taskId) y.state }

def take (y : Sys W) (taskId : RknpuQueueTaskId) : Sys W :=
  { y with
    state := (y.state.takeTerminalSubmit taskId).2
    hist := y.hist ++ (y.state.complete[taskId]?.map fun task => .submit taskId (.taken task)).toList }

end Sys

/-! ## The machine -/

def Sys.step (y : Sys W) : Act W → Option (Sys W)
  | .enqueue submit tasks t0Ns waiter timeNs => some (y.enqueue (queuedSubmit submit tasks t0Ns) waiter timeNs)
  | .decide => if y.worker = .free then some y.decide else none
  | .launch timeNs =>
      match y.worker with
      | .dispatching setup => some (y.launch setup timeNs)
      | _ => none
  | .fail err =>
      match y.worker with
      | .dispatching setup => some (y.fail setup err)
      | _ => none
  | .harvest completions => if y.worker = .free then some (y.harvest completions) else none
  | .wake deviceError =>
      match y.worker with
      | .waking taskIds prepareRead => some (y.wake taskIds (prepareRead && deviceError))
      | _ => none
  | .abort taskId => some (y.abort taskId)
  | .take taskId => some (y.take taskId)

def scheduler (W : Type) : Machine (Sys W) (Act W) := ⟨Sys.init, Sys.step⟩

/-- What one step does, with the position of the worker that it needs. -/
inductive Sys.Step (y : Sys W) : Act W → Sys W → Prop where
  | enqueue (submit : RknpuSubmit) (tasks : List RknpuTask) (t0Ns : UInt64) (waiter : W) (timeNs : UInt64) :
      Step y (.enqueue submit tasks t0Ns waiter timeNs) (y.enqueue (queuedSubmit submit tasks t0Ns) waiter timeNs)
  | decide : y.worker = .free → Step y .decide y.decide
  | launch {setup : DispatchSetup} (timeNs : UInt64) :
      y.worker = .dispatching setup → Step y (.launch timeNs) (y.launch setup timeNs)
  | fail {setup : DispatchSetup} (err : RknpuError) :
      y.worker = .dispatching setup → Step y (.fail err) (y.fail setup err)
  | harvest (completions : List (CoreCompletion × UInt64)) :
      y.worker = .free → Step y (.harvest completions) (y.harvest completions)
  | wake {taskIds : List RknpuQueueTaskId} {prepareRead : Bool} (deviceError : Bool) :
      y.worker = .waking taskIds prepareRead → Step y (.wake deviceError) (y.wake taskIds (prepareRead && deviceError))
  | abort (taskId : RknpuQueueTaskId) : Step y (.abort taskId) (y.abort taskId)
  | take (taskId : RknpuQueueTaskId) : Step y (.take taskId) (y.take taskId)

theorem Sys.step_cases {y y' : Sys W} {a : Act W} (h : y.step a = some y') : y.Step a y' := by
  unfold Sys.step at h
  split at h
  · cases h
    exact .enqueue ..
  · obtain ⟨hfree, h⟩ := Option.ite_none_right_eq_some.mp h
    cases h
    exact .decide hfree
  · split at h
    · rename_i hw
      cases h
      exact .launch _ hw
    · cases h
  · split at h
    · rename_i hw
      cases h
      exact .fail _ hw
    · cases h
  · obtain ⟨hfree, h⟩ := Option.ite_none_right_eq_some.mp h
    cases h
    exact .harvest _ hfree
  · split at h
    · rename_i hw
      cases h
      exact .wake _ hw
    · cases h
  · cases h
    exact .abort _
  · cases h
    exact .take _

/-! ## Projections of a history -/

/-- The events of one submit. -/
def eventsOf (taskId : RknpuQueueTaskId) (hist : List Event) : List SubmitEvent :=
  hist.filterMap fun
    | .submit id e => if id = taskId then some e else none
    | _ => none

/-- The ids handed out so far, in order. -/
def enqueuedIds (hist : List Event) : List RknpuQueueTaskId :=
  hist.filterMap fun
    | .enqueued id _ _ => some id
    | _ => none

/-- The tasks of a submit that cores are bound to. -/
def inflightOf (coreBinding : CoreMap) (taskId : RknpuQueueTaskId) : List Slot :=
  coreBinding.toList.filterMap fun e => if e.2.taskId = taskId then some (e.2.slot e.1) else none

/-- At most `2 ^ 64` submits were enqueued, so that no id was handed out twice. -/
def Sys.IdsFit (y : Sys W) : Prop := (enqueuedIds y.hist).length ≤ 2 ^ 64

instance (y : Sys W) : Decidable y.IdsFit := inferInstanceAs (Decidable (_ ≤ _))

end Rknpu.Service
