import Rknpu.Lib.Arith

/-!
# The ABI of the submit ioctl

The constants of `job.rs` and `status/mod.rs`, the structures userspace passes in (`ioctrl.rs`,
`job.rs`) and the driver's error type (`err.rs`). Fields keep the widths of the source. An array of
five lanes is a vector of length `rknpuMaxSubcoreTasks`.
-/

namespace Rknpu.Queue

/-! ## Limits and masks -/

/-- `RKNPU_MAX_SUBCORE_TASKS`: task ranges accepted by one submit. -/
abbrev rknpuMaxSubcoreTasks : Nat := 5

/-- `NPU_MAX_CORES`: hardware cores of the RK3588 NPU. -/
def npuMaxCores : Nat := 3

def rknpuCore0Mask : UInt32 := 0x01
def rknpuCore1Mask : UInt32 := 0x02
def rknpuCore2Mask : UInt32 := 0x04

/-- `RKNPU_VALID_CORE_MASK`. -/
def rknpuValidCoreMask : UInt32 := rknpuCore0Mask ||| rknpuCore1Mask ||| rknpuCore2Mask

def rknpuJobPc : UInt32 := (1 : UInt32) <<< 0
def rknpuJobNonblock : UInt32 := (1 : UInt32) <<< 1
def rknpuJobPingpong : UInt32 := (1 : UInt32) <<< 2
def rknpuJobFenceIn : UInt32 := (1 : UInt32) <<< 3
def rknpuJobFenceOut : UInt32 := (1 : UInt32) <<< 4

/-- `RKNPU_JOB_DYNAMIC_TASKS`: idle cores take any task of the submit that is not dispatched yet. -/
def rknpuJobDynamicTasks : UInt32 := (1 : UInt32) <<< 5

/-- `RKNPU_JOB_HARDWARE_MASK`: the flags that may reach the registers. -/
def rknpuJobHardwareMask : UInt32 :=
  rknpuJobPc ||| rknpuJobNonblock ||| rknpuJobPingpong ||| rknpuJobFenceIn ||| rknpuJobFenceOut

/-- `RKNPU_SUBMIT_ALLOWED_FLAGS`: the flags a dynamic submit may carry. -/
def rknpuSubmitAllowedFlags : UInt32 := rknpuJobHardwareMask ||| rknpuJobDynamicTasks

/-- The selection bit of a core, zero beyond the third. -/
def coreMaskFromIndex (index : Nat) : UInt32 :=
  match index with
  | 0 => rknpuCore0Mask
  | 1 => rknpuCore1Mask
  | 2 => rknpuCore2Mask
  | _ => 0

/-! ## Structures shared with userspace -/

/-- The task range of one logical lane. -/
structure RknpuSubcoreTask where
  taskStart : UInt32
  taskNumber : UInt32
deriving DecidableEq, Repr, Inhabited

/-- The hardware task descriptor. -/
structure RknpuTask where
  flags : UInt32
  opIdx : UInt32
  enableMask : UInt32
  intMask : UInt32
  intClear : UInt32
  intStatus : UInt32
  regcfgAmount : UInt32
  regcfgOffset : UInt32
  regcmdAddr : UInt64
deriving DecidableEq, Repr, Inhabited

/-- The argument of the submit ioctl. -/
structure RknpuSubmit where
  flags : UInt32
  timeout : UInt32
  taskStart : UInt32
  taskNumber : UInt32
  taskCounter : UInt32
  priority : Int32
  taskArrayCpuAddress : UInt64
  iommuDomainId : UInt32
  reserved : UInt32
  taskArrayDmaAddress : UInt64
  hwElapseTime : Int64
  coreMask : UInt32
  fenceFd : Int32
  subcoreTask : Vector RknpuSubcoreTask rknpuMaxSubcoreTasks
deriving DecidableEq, Repr

/-- `RknpuSubmit::default`: every field zero. -/
def RknpuSubmit.default : RknpuSubmit where
  flags := 0
  timeout := 0
  taskStart := 0
  taskNumber := 0
  taskCounter := 0
  priority := 0
  taskArrayCpuAddress := 0
  iommuDomainId := 0
  reserved := 0
  taskArrayDmaAddress := 0
  hwElapseTime := 0
  coreMask := 0
  fenceFd := 0
  subcoreTask := Vector.replicate _ ⟨0, 0⟩

/-! ## Errors -/

/-- The driver's error type. -/
inductive RknpuError where
  | invalidParameter
  | timeout
  | outOfMemory
  | notSupported
  | deviceBusy
  | deviceNotReady
  | deviceError
  | hardwareFault
  | iommuError
  | dmaError
  | taskError
  | memoryError
  | invalidHandle
  | tryAgain
  | interrupted
  | permissionDenied
  | internalError
deriving DecidableEq, Repr

end Rknpu.Queue
