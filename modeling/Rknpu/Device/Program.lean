import Rknpu.Device.Device
import Rknpu.Lib.Loop
import Rknpu.Lib.Tiling

/-!
# Programming a core

A translation of `submit_ioctrl_step` with `start_execute_one` and `submit_pc`, down to the registers that are written.
An operation that does not fit its type wraps here and is marked; a build with overflow checks stops there.

`RknpuCore::submit` is the other way to start a core, for operations built in Rust. It starts them batch by batch and
waits for each batch.
-/

namespace Rknpu.Device

open Queue

inductive Reg where
  | pcBaseAddress
  | cnaSPointer
  | macSPointer
  | pcRegisterAmounts
  | pcInterruptMask
  | pcInterruptClear
  | pcTaskCon
  | pcTaskDmaBaseAddr
  | pcOperationEnable
deriving DecidableEq, Repr

/-- The registers written, in order, and whether some operation on the way overflowed. -/
structure Programmed where
  writes : List (Reg × UInt32)
  overflow : Bool
deriving DecidableEq, Repr

/-- What the writes leave in a register. -/
def Programmed.value (p : Programmed) (reg : Reg) : Option UInt32 := p.writes.reverse.lookup reg

structure SubmitBase where
  flags : UInt32
  taskArrayDmaAddress : UInt32
  coreIdx : Nat
  intMask : UInt32
  intClear : UInt32
  regcfgAmount : UInt32

structure SubmitRef where
  base : SubmitBase
  taskNumber : Nat
  regcmdBaseAddr : UInt32

def intClearAll : UInt32 := 0x1ffff

def rknpuPcDataExtraAmount : UInt32 := 4

/-- `REGISTER_AMOUNTS`: command words in units of the chip, less one. -/
def registerAmounts (data : RknpuData) (regcfgAmount : UInt32) : UInt32 × Bool :=
  let (words, tooMany) := regcfgAmount.overflowingAdd rknpuPcDataExtraAmount
  let (amount, noUnit) := (words.divCeil data.pcDataAmountScale).overflowingSub 1
  (amount, tooMany || noUnit)

def sPointer (coreIdx : Nat) : UInt32 × Bool :=
  let (slot, tooLarge) := (0x10000000 : UInt32).overflowingMul (UInt32.ofNat coreIdx)
  let (val, carry) := (0xe : UInt32).overflowingAdd slot
  (val, tooLarge || carry)

def submitPc (config : RknpuData) (args : SubmitRef) : Programmed :=
  let taskPpEn : UInt32 := if args.base.flags &&& rknpuJobPingpong = rknpuJobPingpong then 1 else 0
  let (val, valOverflow) := if args.base.coreIdx < config.irqs then sPointer args.base.coreIdx else (0, false)
  let sPointers := if args.base.coreIdx < config.irqs then [(Reg.cnaSPointer, val), (Reg.macSPointer, val)] else []
  let (amount, amountOverflow) := registerAmounts config args.base.regcfgAmount
  let taskControl := ((0x6 ||| taskPpEn) <<< config.pcTaskNumberBits) ||| UInt32.ofNat args.taskNumber
  { writes :=
      (.pcBaseAddress, 1) :: sPointers ++
      [(.pcBaseAddress, args.regcmdBaseAddr),
        (.pcRegisterAmounts, amount),
        (.pcInterruptMask, args.base.intMask),
        (.pcInterruptClear, args.base.intClear),
        (.pcTaskCon, taskControl),
        (.pcTaskDmaBaseAddr, args.base.taskArrayDmaAddress),
        (.pcOperationEnable, 1),
        (.pcOperationEnable, 0)]
    overflow := valOverflow || amountOverflow || decide (32 ≤ config.pcTaskNumberBits) }

/-- Both addresses are cut to 32 bits here. -/
def startExecuteOne (idx : Nat) (data : RknpuData) (rknpuTask : RknpuTask) (submitFlags : UInt32)
    (taskDmaAddr : UInt64) : Programmed :=
  submitPc data
    { base :=
        { flags := submitFlags
          taskArrayDmaAddress := taskDmaAddr.toUInt32
          coreIdx := idx
          intMask := rknpuTask.intMask
          intClear := rknpuTask.intMask
          regcfgAmount := rknpuTask.regcfgAmount }
      taskNumber := 1
      regcmdBaseAddr := rknpuTask.regcmdAddr.toUInt32 }

/-- `size_of::<RknpuTask>()`. -/
def rknpuTaskSize : Nat := 40

/-- The address of the task's descriptor. The product of a `u32` and the size fits; the sum may not. -/
def taskDmaAddr (taskDmaBase : UInt64) (taskIndex : UInt32) : UInt64 × Bool :=
  if taskDmaBase = 0 then (0, false)
  else
    (taskDmaBase + UInt64.ofNat (taskIndex.toNat * rknpuTaskSize),
      decide (2 ^ 64 ≤ taskDmaBase.toNat + taskIndex.toNat * rknpuTaskSize))

/-- The device and the task afterwards, and what was programmed. `pending` are the interrupts that
`drain_pending_interrupts` finds; it acknowledges each and the empty status after them. -/
def RknpuDev.submitIoctrlStep (dev : RknpuDev) (pending : Nat) (coreSlot : Nat) (submitFlags taskTotal : UInt32)
    (taskDmaBase : UInt64) (taskIndex : UInt32) (task : RknpuTask) :
    Except RknpuError (Programmed × RknpuTask × RknpuDev) :=
  if dev.base.length ≤ coreSlot then .error .invalidParameter
  else if taskTotal = 0 then .error .invalidParameter
  else if taskTotal ≤ taskIndex then .error .invalidParameter
  else
    let (addr, addrOverflow) := taskDmaAddr taskDmaBase taskIndex
    let started := startExecuteOne coreSlot dev.data task submitFlags addr
    .ok (
      { writes := List.replicate (pending + 1) (.pcInterruptClear, intClearAll) ++ started.writes
        overflow := addrOverflow || started.overflow },
      { task with intStatus := 0 },
      (dev.clearCompletionShadow coreSlot).clearCompletionShadow coreSlot)

/-! ## Batches of operations -/

/-- The part of `Submit` that `submit` reads. -/
structure Submit where
  base : SubmitBase
  /-- `regcmd_all.bus_addr()`. -/
  regcmdBase : UInt64
  /-- `tasks.len()`. -/
  totalTasks : Nat

/-- `saturating_mul` of a `usize`. -/
def saturatingMul64 (a b : Nat) : Nat := min (a * b) (2 ^ 64 - 1)

/-- `saturating_add` of a `u64`. -/
def saturatingAdd64 (a b : Nat) : Nat := min (a + b) (2 ^ 64 - 1)

/-- One batch that was started. -/
structure Batch where
  /-- `task_iter` and `task_number`. -/
  block : Block
  job : SubmitRef
  programmed : Programmed

/-- What a batch meets: the interrupts found by the drain before it, and the statuses its wait loop reads in turn. -/
structure BatchEnv where
  pending : Nat
  statuses : List UInt32

/-- The wait loop of a batch: zero is waited out. `none` is a loop that goes on. -/
def waitStatus (intMask : UInt32) : List UInt32 → Option (Except RknpuError UInt32)
  | [] => none
  | status :: statuses =>
      if status &&& intMask > 0 then some (.ok (intMask &&& status))
      else if status ≠ 0 then some (.error .taskError)
      else waitStatus intMask statuses

/-- How `submit` ends: with a result, or in a wait loop that goes on. -/
inductive SubmitEnd where
  | returned (result : Except RknpuError Unit)
  | waiting

/-- `task_iter`, and the batches started so far. -/
structure SubmitLoop where
  taskIter : Nat
  started : List Batch

/-- One turn of the loop of `RknpuCore::submit`. With a `wait_fn` the status comes from the interrupt handler, without
one from the register. -/
def Submit.turn (config : RknpuData) (maxSubmitNumber : UInt64) (waitFn : Bool) (args : Submit) (env : Nat → BatchEnv)
    (k : Nat) (s : SubmitLoop) : SubmitLoop ⊕ (SubmitEnd × List Batch) :=
  if s.taskIter < args.totalTasks then
    let taskNumber := min (args.totalTasks - s.taskIter) maxSubmitNumber.toNat
    let batchOffsetBytes := saturatingMul64 (saturatingMul64 s.taskIter args.base.regcfgAmount.toNat) 8
    let batchRegcmdAddr := saturatingAdd64 args.regcmdBase.toNat batchOffsetBytes
    if batchRegcmdAddr > 2 ^ 32 - 1 then .inr (.returned (.error .invalidParameter), s.started)
    else
      let job : SubmitRef := { base := args.base, taskNumber, regcmdBaseAddr := UInt32.ofNat batchRegcmdAddr }
      let pc := submitPc config job
      let batch : Batch :=
        { block := ⟨s.taskIter, taskNumber⟩
          job
          programmed :=
            { pc with
              writes := List.replicate ((env k).pending + 1) (.pcInterruptClear, intClearAll) ++ pc.writes } }
      let started := s.started ++ [batch]
      let statuses := if waitFn then (env k).statuses else (env k).statuses.map rknpuFuzzStatus
      match waitStatus args.base.intMask statuses with
      | none => .inr (.waiting, started)
      | some (.error e) => .inr (.returned (.error e), started)
      | some (.ok _) => .inl ⟨s.taskIter + taskNumber, started⟩
  else .inr (.returned (.ok ()), s.started)

/-- The loop of `RknpuCore::submit`, for at most `fuel` turns. -/
def Submit.submit (config : RknpuData) (maxSubmitNumber : UInt64) (waitFn : Bool) (args : Submit) (env : Nat → BatchEnv)
    (fuel : Nat) : Option (SubmitEnd × List Batch) :=
  (loopFor (args.turn config maxSubmitNumber waitFn env) fuel 0 ⟨0, []⟩).map Prod.snd

end Rknpu.Device
