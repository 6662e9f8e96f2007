import Rknpu.Queue.Abi

/-!
# The progress of one submit

A translation of `task/taskqueen.rs`: the metadata of a submit, the fields kept for the reply, and the
live submit with its per-lane cursors (static mode) or its three counters (dynamic mode). A lane slot is
a `Fin rknpuMaxSubcoreTasks`: every lane slot of the source comes from `0..RKNPU_MAX_SUBCORE_TASKS` and
its casts to `u8` and back lose nothing.

`u32` additions wrap, as in the release build the kernel uses.
-/

namespace Rknpu.Queue

/-- `RknpuQueueTaskId`. -/
abbrev RknpuQueueTaskId : Type := UInt64

/-- A logical lane of a submit. -/
abbrev LaneSlot : Type := Fin rknpuMaxSubcoreTasks

/-! ## Metadata -/

/-- Scheduling metadata, fixed at enqueue. -/
structure SubmitMeta where
  flags : UInt32
  priority : Int32
  coreMask : UInt32
  taskArrayDmaAddress : UInt64
  laneRanges : Vector RknpuSubcoreTask rknpuMaxSubcoreTasks
  taskTotal : UInt32
deriving DecidableEq, Repr

/-- The loop of `dynamicLayoutIsValid` over the lanes, from the next task that must start a lane. -/
def lanesAreConsecutive (taskNumber : UInt32) : List RknpuSubcoreTask → UInt32 → Bool
  | [], nextTask => nextTask == taskNumber
  | lane :: lanes, nextTask =>
      if lane.taskNumber = 0 then
        if lane.taskStart ≠ 0 then false else lanesAreConsecutive taskNumber lanes nextTask
      else if lane.taskStart ≠ nextTask then false
      else
        match lane.taskStart.checkedAdd lane.taskNumber with
        | none => false
        | some last => if last > taskNumber then false else lanesAreConsecutive taskNumber lanes last

/-- Static submits keep their legacy layouts; a dynamic one must partition its tasks. -/
def SubmitMeta.dynamicLayoutIsValid (submit : RknpuSubmit) : Bool :=
  if submit.flags &&& rknpuJobDynamicTasks = 0 then true
  else if submit.flags &&& ~~~rknpuSubmitAllowedFlags ≠ 0 ∨
      submit.coreMask &&& ~~~rknpuValidCoreMask ≠ 0 ∨ submit.taskNumber = 0 then false
  else lanesAreConsecutive submit.taskNumber submit.subcoreTask.toList 0

/-- When every lane is empty, lane 0 is made to cover the whole task array. -/
def SubmitMeta.fromSubmit (submit : RknpuSubmit) (taskTotal : UInt32) : SubmitMeta :=
  let allEmpty := submit.subcoreTask.toList.all fun lane => lane.taskNumber == 0
  { flags := submit.flags
    priority := submit.priority
    coreMask := submit.coreMask
    taskArrayDmaAddress := submit.taskArrayDmaAddress
    laneRanges :=
      if allEmpty ∧ taskTotal > 0 then
        submit.subcoreTask.set 0 { taskStart := 0, taskNumber := taskTotal }
      else submit.subcoreTask
    taskTotal }

/-- The range of a lane that owns at least one task. -/
def SubmitMeta.laneRange (m : SubmitMeta) (laneSlot : LaneSlot) : Option RknpuSubcoreTask :=
  let lane := m.laneRanges[laneSlot]
  if lane.taskNumber > 0 then some lane else none

def SubmitMeta.usesDynamicTasks (m : SubmitMeta) : Bool :=
  m.flags &&& rknpuJobDynamicTasks != 0

/-- The body of `RknpuQueueTask::completion_target`, which reads the metadata only: how many completions
make the submit terminal. -/
def SubmitMeta.completionTarget (m : SubmitMeta) : UInt32 :=
  if m.usesDynamicTasks then m.taskTotal
  else
    let total := (m.laneRanges.toList.map (·.taskNumber)).sum
    if total = 0 then m.taskTotal else min total m.taskTotal

def SubmitMeta.hardwareFlags (m : SubmitMeta) : UInt32 :=
  m.flags &&& rknpuJobHardwareMask

/-! ## Fields kept for the reply -/

/-- Fields that are only copied back. -/
structure SubmitReplyState where
  timeout : UInt32
  taskStart : UInt32
  iommuDomainId : UInt32
  reserved : UInt32
  fenceFd : Int32
deriving DecidableEq, Repr

def SubmitReplyState.fromSubmit (submit : RknpuSubmit) : SubmitReplyState where
  timeout := submit.timeout
  taskStart := submit.taskStart
  iommuDomainId := submit.iommuDomainId
  reserved := submit.reserved
  fenceFd := submit.fenceFd

/-- Timestamps of the submit's phases, zero when not reached. -/
structure SubmitLatencyTrace where
  t0Ns : UInt64 := 0
  t1Ns : UInt64 := 0
  t2Ns : UInt64 := 0
  t3Ns : UInt64 := 0
deriving DecidableEq, Repr

/-- The payload handed to the scheduler. -/
structure RknpuQueuedSubmit where
  submitMeta : SubmitMeta
  reply : SubmitReplyState
  tasks : List RknpuTask
  latency : SubmitLatencyTrace
deriving DecidableEq, Repr

/-- `tasks.len() as u32` keeps the low 32 bits of the length. -/
def RknpuQueuedSubmit.new (submit : RknpuSubmit) (tasks : List RknpuTask) : RknpuQueuedSubmit where
  submitMeta := SubmitMeta.fromSubmit submit (UInt32.ofNat tasks.length)
  reply := SubmitReplyState.fromSubmit submit
  tasks := tasks
  latency := {}

/-! ## The live submit -/

/-- Progress of one submit. Static mode reads the cursors and running bits, dynamic mode the counters. -/
structure RknpuQueueTask where
  id : RknpuQueueTaskId
  submitMeta : SubmitMeta
  reply : SubmitReplyState
  tasks : List RknpuTask
  subcoreCursors : Vector UInt32 rknpuMaxSubcoreTasks
  laneIsrun : Vector Bool rknpuMaxSubcoreTasks
  dynamicNextTask : UInt32
  dynamicRunningTasks : UInt32
  dynamicCompletedTasks : UInt32
  lastError : Option RknpuError
  latency : SubmitLatencyTrace
deriving DecidableEq, Repr

namespace RknpuQueueTask

def new (id : RknpuQueueTaskId) (queuedSubmit : RknpuQueuedSubmit) : RknpuQueueTask where
  id := id
  submitMeta := queuedSubmit.submitMeta
  reply := queuedSubmit.reply
  tasks := queuedSubmit.tasks
  subcoreCursors := Vector.replicate _ 0
  laneIsrun := Vector.replicate _ false
  dynamicNextTask := 0
  dynamicRunningTasks := 0
  dynamicCompletedTasks := 0
  lastError := none
  latency := queuedSubmit.latency

def markEnqueued (t : RknpuQueueTask) (timeNs : UInt64) : RknpuQueueTask :=
  { t with latency.t1Ns := timeNs }

/-- Only the first dispatch of a submit is recorded. -/
def markFirstDispatch (t : RknpuQueueTask) (timeNs : UInt64) : RknpuQueueTask :=
  if t.latency.t2Ns = 0 then { t with latency.t2Ns := timeNs } else t

def markTerminal (t : RknpuQueueTask) (timeNs : UInt64) : RknpuQueueTask :=
  { t with latency.t3Ns := timeNs }

def completionTarget (t : RknpuQueueTask) : UInt32 :=
  t.submitMeta.completionTarget

def completedTaskCount (t : RknpuQueueTask) : UInt32 :=
  if t.submitMeta.usesDynamicTasks then min t.dynamicCompletedTasks t.submitMeta.taskTotal
  else min t.subcoreCursors.toList.sum t.completionTarget

def hasRunningTasks (t : RknpuQueueTask) : Bool :=
  if t.submitMeta.usesDynamicTasks then t.dynamicRunningTasks != 0
  else t.laneIsrun.toList.any fun running => running

def isTerminalSuccess (t : RknpuQueueTask) : Bool :=
  t.lastError.isNone && decide (t.completedTaskCount ≥ t.completionTarget)

def isTerminalFault (t : RknpuQueueTask) : Bool :=
  t.lastError.isSome && !t.hasRunningTasks

/-- The header copied back to userspace. -/
def buildSubmit (t : RknpuQueueTask) : RknpuSubmit :=
  { RknpuSubmit.default with
    flags := t.submitMeta.flags
    timeout := t.reply.timeout
    taskStart := t.reply.taskStart
    taskNumber := t.submitMeta.taskTotal
    taskCounter := t.completedTaskCount
    priority := t.submitMeta.priority
    taskArrayCpuAddress := 0
    iommuDomainId := t.reply.iommuDomainId
    reserved := t.reply.reserved
    taskArrayDmaAddress := t.submitMeta.taskArrayDmaAddress
    hwElapseTime :=
      if t.lastError.isSome then -1
      else if t.isTerminalSuccess then Int64.ofNat t.completedTaskCount.toNat
      else 0
    coreMask := t.submitMeta.coreMask
    fenceFd := t.reply.fenceFd
    subcoreTask := t.submitMeta.laneRanges }

/-- A zero mask allows every core. -/
def allowsCore (t : RknpuQueueTask) (coreSlot : Nat) : Bool :=
  let mask := t.submitMeta.coreMask
  mask == 0 || mask &&& coreMaskFromIndex coreSlot != 0

/-- The lane whose range holds a task; lanes whose end does not fit in a `u32` are skipped. -/
def originLaneForTask (t : RknpuQueueTask) (taskIndex : UInt32) : Option LaneSlot :=
  (List.finRange rknpuMaxSubcoreTasks).findSome? fun laneSlot =>
    let lane := t.submitMeta.laneRanges[laneSlot]
    match lane.taskStart.checkedAdd lane.taskNumber with
    | none => none
    | some last =>
        if lane.taskNumber > 0 ∧ taskIndex ≥ lane.taskStart ∧ taskIndex < last then some laneSlot else none

/-- The body of the static loop: the task a lane can dispatch now. -/
def nextTaskOfLane (t : RknpuQueueTask) (laneSlot : LaneSlot) : Option UInt32 :=
  if t.laneIsrun[laneSlot] then none
  else
    match t.submitMeta.laneRange laneSlot with
    | none => none
    | some range =>
        let cursor := t.subcoreCursors[laneSlot]
        if cursor ≥ range.taskNumber then none
        else
          let taskIndex := range.taskStart.saturatingAdd cursor
          if taskIndex ≥ t.submitMeta.taskTotal ∨ taskIndex.toNat ≥ t.tasks.length then none
          else some taskIndex

/-- The lane and the index of the task to dispatch next. After an error no task is handed out. -/
def nextDispatchableTask (t : RknpuQueueTask) : Option (LaneSlot × UInt32) :=
  if t.lastError.isSome then none
  else if t.submitMeta.usesDynamicTasks then
    let taskIndex := t.dynamicNextTask
    if taskIndex ≥ t.submitMeta.taskTotal ∨ taskIndex.toNat ≥ t.tasks.length then none
    else (t.originLaneForTask taskIndex).map fun lane => (lane, taskIndex)
  else
    (List.finRange rknpuMaxSubcoreTasks).findSome? fun laneSlot =>
      (t.nextTaskOfLane laneSlot).map fun taskIndex => (laneSlot, taskIndex)

def hasDispatchableTask (t : RknpuQueueTask) : Bool :=
  t.nextDispatchableTask.isSome

/-- Reserve the task that `nextDispatchableTask` returned; `false` leaves the submit unchanged. -/
def reserveDispatch (t : RknpuQueueTask) (laneSlot : LaneSlot) (taskIndex : UInt32) :
    Bool × RknpuQueueTask :=
  if t.nextDispatchableTask ≠ some (laneSlot, taskIndex) then (false, t)
  else if t.submitMeta.usesDynamicTasks then
    (true, { t with
      dynamicNextTask := t.dynamicNextTask + 1
      dynamicRunningTasks := t.dynamicRunningTasks + 1 })
  else (true, { t with laneIsrun := t.laneIsrun.set laneSlot true })

/-- Completion of one reserved task. -/
def completeDispatch (t : RknpuQueueTask) (laneSlot : LaneSlot) : RknpuQueueTask :=
  if t.submitMeta.usesDynamicTasks then
    { t with
      dynamicRunningTasks := t.dynamicRunningTasks.saturatingSub 1
      dynamicCompletedTasks := min (t.dynamicCompletedTasks.saturatingAdd 1) t.submitMeta.taskTotal }
  else
    let t := { t with laneIsrun := t.laneIsrun.set laneSlot false }
    match t.submitMeta.laneRange laneSlot with
    | none => t
    | some range =>
        { t with
          subcoreCursors :=
            t.subcoreCursors.set laneSlot
              (min (t.subcoreCursors[laneSlot].saturatingAdd 1) range.taskNumber) }

/-- A reserved task that never ran: the cursor stays, the error is recorded. -/
def failDispatch (t : RknpuQueueTask) (laneSlot : LaneSlot) (err : RknpuError) : RknpuQueueTask :=
  if t.submitMeta.usesDynamicTasks then
    { t with
      dynamicRunningTasks := t.dynamicRunningTasks.saturatingSub 1
      lastError := some err }
  else { t with laneIsrun := t.laneIsrun.set laneSlot false, lastError := some err }

/-! ## Writes of the scheduler to the task shadow -/

/-- `prepare_dispatch` clears the status of the task it is about to reserve. -/
def clearIntStatus (t : RknpuQueueTask) (taskIndex : UInt32) : RknpuQueueTask :=
  { t with tasks := t.tasks.modify taskIndex.toNat fun desc => { desc with intStatus := 0 } }

/-- The update of `harvest_completed_cores` for one completion of this submit. -/
def recordCompletion (t : RknpuQueueTask) (laneSlot : LaneSlot) (taskIndex observedIrqStatus : UInt32) :
    RknpuQueueTask :=
  match t.tasks[taskIndex.toNat]? with
  | some taskDesc =>
      let lastTaskIntStatus := observedIrqStatus &&& taskDesc.intMask
      let taskError := observedIrqStatus ≠ 0 ∧ lastTaskIntStatus = 0
      let tasks := t.tasks.set taskIndex.toNat { taskDesc with intStatus := lastTaskIntStatus }
      let t := { t with tasks }.completeDispatch laneSlot
      if taskError then { t with lastError := some .taskError } else t
  | none => t.failDispatch laneSlot .invalidParameter

end RknpuQueueTask

end Rknpu.Queue
