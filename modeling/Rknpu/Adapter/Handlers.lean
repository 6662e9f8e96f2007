import Rknpu.Adapter.Requests

/-!
# The driver ioctls

A translation of `service/ioctl.rs`. A payload is read from memory at the address that was passed in; the offsets are
those of the `repr(C)` structures. The device has its cores, so the register accesses of the action ioctl are in
bounds.
-/

namespace Rknpu.Adapter

open Queue Device Service

/-! ## Payloads -/

def sizeofSubmit : Nat := 104
def sizeofTask : Nat := 40
def sizeofMemCreate : Nat := 48
def sizeofMemMap : Nat := 16
def sizeofMemDestroy : Nat := 16
def sizeofMemSync : Nat := 32
def sizeofUserAction : Nat := 8
def sizeofSubmitTraceQuery : Nat := 24
def sizeofSubmitTraceRecord : Nat := 48
def sizeofWorkerYieldTraceQuery : Nat := 32
def sizeofWorkerYieldTraceRecord : Nat := 40
def sizeofScheduleTraceQuery : Nat := 40
def sizeofScheduleTraceRecord : Nat := 88
def sizeofSchedulerStateSnapshot : Nat := 40

def loadSubcoreTask (mem : Memory) (addr : UInt64) : RknpuSubcoreTask where
  taskStart := mem.u32 addr
  taskNumber := mem.u32 (addr + 4)

def loadSubmit (mem : Memory) (addr : UInt64) : RknpuSubmit where
  flags := mem.u32 addr
  timeout := mem.u32 (addr + 4)
  taskStart := mem.u32 (addr + 8)
  taskNumber := mem.u32 (addr + 12)
  taskCounter := mem.u32 (addr + 16)
  priority := (mem.u32 (addr + 20)).toInt32
  taskArrayCpuAddress := mem.u64 (addr + 24)
  iommuDomainId := mem.u32 (addr + 32)
  reserved := mem.u32 (addr + 36)
  taskArrayDmaAddress := mem.u64 (addr + 40)
  hwElapseTime := (mem.u64 (addr + 48)).toInt64
  coreMask := mem.u32 (addr + 56)
  fenceFd := (mem.u32 (addr + 60)).toInt32
  subcoreTask := .ofFn fun lane => loadSubcoreTask mem (addr + 64 + 8 * UInt64.ofNat lane)

def loadTask (mem : Memory) (addr : UInt64) : RknpuTask where
  flags := mem.u32 addr
  opIdx := mem.u32 (addr + 4)
  enableMask := mem.u32 (addr + 8)
  intMask := mem.u32 (addr + 12)
  intClear := mem.u32 (addr + 16)
  intStatus := mem.u32 (addr + 20)
  regcfgAmount := mem.u32 (addr + 24)
  regcfgOffset := mem.u32 (addr + 28)
  regcmdAddr := mem.u64 (addr + 32)

def loadTasks (mem : Memory) (addr : UInt64) (count : Nat) : List RknpuTask :=
  (List.range count).map fun i => loadTask mem (addr + 40 * UInt64.ofNat i)

def loadMemCreate (mem : Memory) (addr : UInt64) : RknpuMemCreate where
  handle := mem.u32 addr
  flags := mem.u32 (addr + 4)
  size := mem.u64 (addr + 8)
  objAddr := mem.u64 (addr + 16)
  dmaAddr := mem.u64 (addr + 24)
  sramSize := mem.u64 (addr + 32)
  iommuDomainId := (mem.u32 (addr + 40)).toInt32
  coreMask := mem.u32 (addr + 44)

def loadMemMap (mem : Memory) (addr : UInt64) : RknpuMemMap where
  handle := mem.u32 addr
  reserved := mem.u32 (addr + 4)
  offset := mem.u64 (addr + 8)

def loadMemDestroy (mem : Memory) (addr : UInt64) : RknpuMemDestroy where
  handle := mem.u32 addr
  reserved := mem.u32 (addr + 4)
  objAddr := mem.u64 (addr + 8)

/-- The fields of the three trace queries that the handlers read. -/
structure TraceQuery where
  operation : UInt32
  enabled : UInt32 := 0
  eventMask : UInt32 := 0
  capacity : UInt32
  reserved : UInt32 := 0
  recordsAddress : UInt64
  stateAddress : UInt64 := 0

def loadSubmitTraceQuery (mem : Memory) (addr : UInt64) : TraceQuery where
  operation := mem.u32 addr
  capacity := mem.u32 (addr + 4)
  recordsAddress := mem.u64 (addr + 16)

def loadWorkerYieldTraceQuery (mem : Memory) (addr : UInt64) : TraceQuery where
  operation := mem.u32 addr
  enabled := mem.u32 (addr + 4)
  capacity := mem.u32 (addr + 8)
  reserved := mem.u32 (addr + 20)
  recordsAddress := mem.u64 (addr + 24)

def loadScheduleTraceQuery (mem : Memory) (addr : UInt64) : TraceQuery where
  operation := mem.u32 addr
  eventMask := mem.u32 (addr + 4)
  capacity := mem.u32 (addr + 8)
  recordsAddress := mem.u64 (addr + 24)
  stateAddress := mem.u64 (addr + 32)

def traceReset : UInt32 := 0
def traceRead : UInt32 := 1
def traceState : UInt32 := 2
def submitTraceCapacity : Nat := 1024
def workerYieldTraceDefaultCapacity : Nat := 262144
def workerYieldTraceMaxCapacity : Nat := 1048576
def scheduleTraceCapacity : Nat := 16384

/-- `RKNPU_SCHEDULE_EVENT_ALL`. -/
def scheduleEventAll : UInt32 := 0xf

/-! ## Copies and the device -/

/-- `copy_from_user` of the platform, for a payload of this size. -/
def copyIn (src : UInt64) (size : Nat) : Ioctl RknpuServiceError Unit :=
  (copyFromUser .value src size).mapError fun _ => .invalidData

def copyOut (dst : UInt64) (size : Nat) : Ioctl RknpuServiceError Unit :=
  (copyToUser dst .value size).mapError fun _ => .invalidData

def withNpuDriver {α : Type} (f : RknpuDev → Ioctl RknpuServiceError (α × RknpuDev)) :
    Ioctl RknpuServiceError α := do
  let dev ← lockDevice
  let (a, dev) ← f dev
  unlockDevice dev
  return a

def reportError : Option RknpuError → Ioctl RknpuServiceError Unit
  | some err => .fail (.driver err)
  | none => return ()

section

variable {heap : Allocation → Bool → Prop} {p : Request → Prop} {α : Type}

@[simp] theorem calls_copyIn {src : UInt64} {size : Nat} :
    (copyIn src size).Calls (Possible heap) p ↔ p (.copyFromUser .value src size) := by
  simp [copyIn]

@[simp] theorem returns_copyIn {src : UInt64} {size : Nat} {u : Unit} : (copyIn src size).Returns (Possible heap) u := by
  simp [copyIn]

@[simp] theorem calls_copyOut {dst : UInt64} {size : Nat} :
    (copyOut dst size).Calls (Possible heap) p ↔ p (.copyToUser dst .value size) := by
  simp [copyOut]

@[simp] theorem returns_copyOut {dst : UInt64} {size : Nat} {u : Unit} :
    (copyOut dst size).Returns (Possible heap) u := by
  simp [copyOut]

@[simp] theorem calls_reportError {err : Option RknpuError} : (reportError err).Calls (Possible heap) p := by
  cases err <;> simp [reportError]

@[simp] theorem calls_withNpuDriver {f : RknpuDev → Ioctl RknpuServiceError (α × RknpuDev)} :
    (withNpuDriver f).Calls (Possible heap) p ↔ p .lockDevice ∧ ∀ dev, (f dev).Calls (Possible heap) p ∧
      ∀ a dev', (f dev).Returns (Possible heap) (a, dev') → p (.unlockDevice dev') := by
  simp [withNpuDriver]

@[simp] theorem returns_withNpuDriver {f : RknpuDev → Ioctl RknpuServiceError (α × RknpuDev)} {a : α} :
    (withNpuDriver f).Returns (Possible heap) a ↔ ∃ dev dev', (f dev).Returns (Possible heap) (a, dev') := by
  simp [withNpuDriver]

end

/-! ## Submit -/

def handleSubmitIoctl (mem : Memory) (arg : UInt64) : Ioctl RknpuServiceError Unit := do
  copyIn arg sizeofSubmit
  let submit := loadSubmit mem arg
  .ofExcept (checkSubmit submit)
  let taskBytes := submit.taskNumber.toNat * sizeofTask
  allocate taskBytes
  copyIn submit.taskArrayCpuAddress taskBytes
  allocateNodes
  let tasks := loadTasks mem submit.taskArrayCpuAddress submit.taskNumber.toNat
  let finished ← blockingSubmit submit tasks
  copyOut submit.taskArrayCpuAddress taskBytes
  copyOut arg sizeofSubmit
  reportError finished.lastError

/-! ## Traces -/

/-- The snapshot of the submit and of the schedule trace has room for as many records as the caller asks for. -/
def snapshotWithCapacity (kind : TraceKind) (recordSize capacity : Nat) : Ioctl RknpuServiceError Nat := do
  allocate (capacity * recordSize)
  snapshotTrace kind capacity

def snapshotSubmitTrace (capacity : Nat) : Ioctl RknpuServiceError Nat :=
  snapshotWithCapacity .submit sizeofSubmitTraceRecord capacity

def snapshotScheduleTrace (capacity : Nat) : Ioctl RknpuServiceError Nat :=
  snapshotWithCapacity .schedule sizeofScheduleTraceRecord capacity

/-- The room is that of the records at a first look; at the second look there may be fewer. -/
def snapshotWorkerYieldTrace (capacity : Nat) : Ioctl RknpuServiceError Nat := do
  let snapshotLimit ← snapshotTrace .workerYield capacity
  tryReserve (snapshotLimit * sizeofWorkerYieldTraceRecord)
  snapshotTrace .workerYield (min capacity snapshotLimit)

/-- The `READ` operation of a trace. -/
def readTrace (limit recordSize : Nat) (snapshot : Nat → Ioctl RknpuServiceError Nat) (query : TraceQuery) :
    Ioctl RknpuServiceError Unit := do
  let capacity := query.capacity.toNat
  if limit < capacity ∨ 0 < capacity ∧ query.recordsAddress = 0 then .fail .invalidInput
  else do
    let count ← snapshot capacity
    if 0 < count * recordSize then copyOut query.recordsAddress (count * recordSize)

def handleSubmitTraceIoctl (mem : Memory) (arg : UInt64) : Ioctl RknpuServiceError Unit := do
  copyIn arg sizeofSubmitTraceQuery
  let query := loadSubmitTraceQuery mem arg
  if query.operation = traceReset then resetTrace .submit
  else if query.operation = traceRead then
    readTrace submitTraceCapacity sizeofSubmitTraceRecord snapshotSubmitTrace query
  else .fail .invalidInput
  copyOut arg sizeofSubmitTraceQuery

/-- `configure_worker_yield_trace` of a query whose fields are in range. -/
def configureWorkerYieldTrace (query : TraceQuery) : Ioctl RknpuServiceError Unit := do
  if 1 < query.enabled then .fail .invalidInput
  else
    let capacity :=
      if query.enabled = 0 then 0
      else if query.capacity = 0 then workerYieldTraceDefaultCapacity
      else query.capacity.toNat
    if workerYieldTraceMaxCapacity < capacity then .fail .invalidInput
    else do
      tryReserve (capacity * sizeofWorkerYieldTraceRecord)
      resetTrace .workerYield

def handleWorkerYieldTraceIoctl (mem : Memory) (arg : UInt64) : Ioctl RknpuServiceError Unit := do
  copyIn arg sizeofWorkerYieldTraceQuery
  let query := loadWorkerYieldTraceQuery mem arg
  if query.reserved ≠ 0 then .fail .invalidInput
  else if query.operation = traceReset then configureWorkerYieldTrace query
  else if query.operation = traceRead then
    readTrace workerYieldTraceMaxCapacity sizeofWorkerYieldTraceRecord snapshotWorkerYieldTrace query
  else .fail .invalidInput
  copyOut arg sizeofWorkerYieldTraceQuery

/-- `configure_schedule_trace`: the buffer is allocated when some event is to be recorded. -/
def configureScheduleTrace (eventMask : UInt32) : Ioctl RknpuServiceError Unit := do
  if eventMask ≠ 0 then allocate (scheduleTraceCapacity * sizeofScheduleTraceRecord)
  resetTrace .schedule

/-- The `STATE` operation; the device is locked for the counts of the pool. -/
def readSchedulerState (query : TraceQuery) : Ioctl RknpuServiceError Unit := do
  if query.stateAddress = 0 then .fail .invalidInput
  else do
    withNpuDriver fun dev => return ((), dev)
    copyOut query.stateAddress sizeofSchedulerStateSnapshot

def handleScheduleTraceIoctl (mem : Memory) (arg : UInt64) : Ioctl RknpuServiceError Unit := do
  copyIn arg sizeofScheduleTraceQuery
  let query := loadScheduleTraceQuery mem arg
  if query.operation = traceReset then
    if query.eventMask &&& ~~~scheduleEventAll ≠ 0 then .fail .invalidInput
    else configureScheduleTrace query.eventMask
  else if query.operation = traceRead then
    readTrace scheduleTraceCapacity sizeofScheduleTraceRecord snapshotScheduleTrace query
  else if query.operation = traceState then readSchedulerState query
  else .fail .invalidInput
  copyOut arg sizeofScheduleTraceQuery

/-! ## Buffers -/

def handleMemCreateIoctl (mem : Memory) (arg : UInt64) : Ioctl RknpuServiceError Unit := do
  copyIn arg sizeofMemCreate
  let args := loadMemCreate mem arg
  withNpuDriver fun dev => do
    let data ← dmaZeros args.size
    let (_, gem) ← unwrap (dev.gem.create args data)
    allocateNodes
    return ((), { dev with gem })
  copyOut arg sizeofMemCreate

def handleMemMapIoctl (mem : Memory) (arg : UInt64) : Ioctl RknpuServiceError Unit := do
  copyIn arg sizeofMemMap
  let args := loadMemMap mem arg
  withNpuDriver fun dev => do
    let _ ← .ofExcept ((dev.gem.memMap args).mapError RknpuServiceError.driver)
    return ((), dev)
  copyOut arg sizeofMemMap

def handleMemDestroyIoctl (mem : Memory) (arg : UInt64) : Ioctl RknpuServiceError Unit := do
  copyIn arg sizeofMemDestroy
  withNpuDriver fun dev => return ((), { dev with gem := dev.gem.memDestroy (loadMemDestroy mem arg) })

/-- `GemPool::sync` is empty. -/
def handleMemSyncIoctl (arg : UInt64) : Ioctl RknpuServiceError Unit := do
  copyIn arg sizeofMemSync
  withNpuDriver fun dev => return ((), dev)

def handleActionIoctl (mem : Memory) (arg : UInt64) : Ioctl RknpuServiceError Unit := do
  copyIn arg sizeofUserAction
  match RknpuAction.tryFrom (mem.u32 arg) with
  | none => .fail .badIoctl
  | some action => do
      withNpuDriver fun dev => do
        let regs ← registers
        let (result, dev) := dev.action regs (mem.u32 (arg + 4)) action
        let _ ← .ofExcept (result.mapError RknpuServiceError.driver)
        return ((), dev)
      copyOut arg sizeofUserAction

/-! ## Commands -/

inductive RknpuCmd where
  | action | submit | memCreate | memMap | memDestroy | memSync | submitTrace | scheduleTrace | workerYieldTrace
deriving DecidableEq, Repr

/-- `TryFrom<u32>`: each command has a number of its own and one above `DRM_COMMAND_BASE`. -/
def RknpuCmd.tryFrom (nr : UInt32) : Option RknpuCmd :=
  let index := if 0x40 ≤ nr then nr - 0x40 else nr
  ([.action, .submit, .memCreate, .memMap, .memDestroy, .memSync, .submitTrace, .scheduleTrace,
    .workerYieldTrace] : List RknpuCmd)[index.toNat]?

def driverIoctl (mem : Memory) (arg : UInt64) : RknpuCmd → Ioctl RknpuServiceError Unit
  | .submit => handleSubmitIoctl mem arg
  | .memCreate => handleMemCreateIoctl mem arg
  | .memMap => handleMemMapIoctl mem arg
  | .memDestroy => handleMemDestroyIoctl mem arg
  | .memSync => handleMemSyncIoctl arg
  | .submitTrace => handleSubmitTraceIoctl mem arg
  | .scheduleTrace => handleScheduleTraceIoctl mem arg
  | .workerYieldTrace => handleWorkerYieldTraceIoctl mem arg
  | .action => handleActionIoctl mem arg

end Rknpu.Adapter
