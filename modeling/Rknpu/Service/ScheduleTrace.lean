import Rknpu.Lib.BoundedLog
import Rknpu.Service.State

/-!
# The schedule trace

The event buffer of `service/scheduler.rs` behind its own lock, and `handle_schedule_trace_ioctl`. The atomic flag in
front of the buffer is set by the same call that replaces the buffer.
-/

namespace Rknpu.Service

open Queue

/-! ## Records -/

def rknpuScheduleEventEnqueue : UInt32 := (1 : UInt32) <<< 0
def rknpuScheduleEventDispatch : UInt32 := (1 : UInt32) <<< 1
def rknpuScheduleEventComplete : UInt32 := (1 : UInt32) <<< 2
def rknpuScheduleEventFailed : UInt32 := (1 : UInt32) <<< 3
def rknpuScheduleEventAll : UInt32 :=
  rknpuScheduleEventEnqueue ||| rknpuScheduleEventDispatch ||| rknpuScheduleEventComplete ||| rknpuScheduleEventFailed

def rknpuScheduleTraceCapacity : Nat := 16384

/-- `RKNPU_DISPATCH_SOURCE_*` as it is written to a record. -/
def DispatchSource.toUInt32 : DispatchSource → UInt32
  | .none => 0
  | .ready => 1
  | .running => 2

structure RknpuScheduleTraceRecord where
  sequence : UInt64 := 0
  timestampNs : UInt64 := 0
  queueTask : UInt64 := 0
  priority : Int32 := 0
  eventType : UInt32 := 0
  opIdx : UInt32 := 0
  taskIndex : UInt32 := 0
  coreSlot : UInt32 := 0
  laneSlot : UInt32 := 0
  dispatchSource : UInt32 := 0
  readyPriority : Int32 := 0
  irqTimestampNs : UInt64 := 0
  workerResumeNs : UInt64 := 0
  workerCycle : UInt64 := 0
  harvestedCores : UInt32 := 0
  timingReserved : UInt32 := 0
deriving DecidableEq, Repr

/-! ## The buffer -/

/-- `log` is `records` with `overflowed`. -/
structure ScheduleTraceBuffer where
  log : BoundedLog RknpuScheduleTraceRecord
  eventMask : UInt32
  nextSequence : UInt64

namespace ScheduleTraceBuffer

def configured (eventMask : UInt32) : ScheduleTraceBuffer where
  log := .empty
  eventMask := eventMask
  nextSequence := 0

def new : ScheduleTraceBuffer := configured 0

def push (b : ScheduleTraceBuffer) (record : RknpuScheduleTraceRecord) : ScheduleTraceBuffer :=
  if b.eventMask &&& record.eventType = 0 then b
  else
    { b with
      log := b.log.push rknpuScheduleTraceCapacity { record with sequence := b.nextSequence }
      nextSequence :=
        if rknpuScheduleTraceCapacity ≤ b.log.entries.length then b.nextSequence else b.nextSequence + 1 }

end ScheduleTraceBuffer

/-- The buffer and the flag in front of it. -/
structure ScheduleTrace where
  buffer : ScheduleTraceBuffer
  enabled : Bool

namespace ScheduleTrace

def new : ScheduleTrace where
  buffer := .new
  enabled := false

def configureScheduleTrace (_ : ScheduleTrace) (eventMask : UInt32) : ScheduleTrace where
  buffer := .configured eventMask
  enabled := eventMask != 0

def recordScheduleEvent (t : ScheduleTrace) (record : RknpuScheduleTraceRecord) : ScheduleTrace :=
  if t.enabled then { t with buffer := t.buffer.push record } else t

def snapshotScheduleTrace (t : ScheduleTrace) (capacity : Nat) : List RknpuScheduleTraceRecord × UInt32 × Bool :=
  let (records, overflowed) := t.buffer.log.snapshot capacity
  (records, t.buffer.eventMask, overflowed)

end ScheduleTrace

/-! ## The ioctl -/

structure RknpuScheduleTraceQuery where
  operation : UInt32
  eventMask : UInt32
  capacity : UInt32
  count : UInt32
  overflowed : UInt32
  recordsAddress : UInt64
  stateAddress : UInt64
deriving DecidableEq, Repr

def rknpuScheduleTraceConfigReset : UInt32 := 0
def rknpuScheduleTraceRead : UInt32 := 1
def rknpuScheduleTraceState : UInt32 := 2

/-- What the copies to userspace and the device answer. -/
structure TraceAnswers where
  records : Except RknpuServiceError Unit
  state : Except RknpuServiceError Unit
  query : Except RknpuServiceError Unit

/-- The records, if there are any, and then the query go back to userspace. -/
def TraceAnswers.copyOut (answers : TraceAnswers) (records : List RknpuScheduleTraceRecord)
    (query : RknpuScheduleTraceQuery) :
    Except RknpuServiceError (List RknpuScheduleTraceRecord × RknpuScheduleTraceQuery) :=
  (if records.isEmpty then .ok () else answers.records).bind fun _ => answers.query.map fun _ => (records, query)

/-- What was copied out, and the trace. The state that `STATE` copies is not part of the trace. The size in bytes is at
most that of 16384 records and does not overflow. -/
def handleScheduleTraceIoctl (t : ScheduleTrace) (query : RknpuScheduleTraceQuery) (answers : TraceAnswers) :
    Except RknpuServiceError (List RknpuScheduleTraceRecord × RknpuScheduleTraceQuery) × ScheduleTrace :=
  if query.operation = rknpuScheduleTraceConfigReset then
    if query.eventMask &&& ~~~rknpuScheduleEventAll ≠ 0 then (.error .invalidInput, t)
    else (answers.copyOut [] { query with count := 0, overflowed := 0 }, t.configureScheduleTrace query.eventMask)
  else if query.operation = rknpuScheduleTraceRead then
    let capacity := query.capacity.toNat
    if capacity > rknpuScheduleTraceCapacity ∨ (capacity > 0 ∧ query.recordsAddress = 0) then (.error .invalidInput, t)
    else
      let (records, eventMask, overflowed) := t.snapshotScheduleTrace capacity
      (answers.copyOut records { query with
        eventMask
        count := UInt32.ofNat records.length
        overflowed := if overflowed then 1 else 0 }, t)
  else if query.operation = rknpuScheduleTraceState then
    if query.stateAddress = 0 then (.error .invalidInput, t)
    else (answers.state.bind fun _ => answers.copyOut [] { query with count := 0, overflowed := 0 }, t)
  else (.error .invalidInput, t)

end Rknpu.Service
