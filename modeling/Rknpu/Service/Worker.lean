import Rknpu.Device.Device
import Rknpu.Service.System

/-!
# The worker thread and the interrupts

`worker_main` with the device under it. One action is one atomic step: a locked section of the scheduler, a swap of
one core's published status, a notification, or an interrupt. The worker registers its listener, harvests core by
core, dispatches, looks at the state once more and waits; other threads and interrupts run between any two of its
steps. A notification reaches the listener that is registered at that moment and is lost when there is none.
-/

namespace Rknpu.Service

open Queue Device

variable {W : Type}

/-! ## States -/

/-- How far the driver call for the last decision got. -/
inductive SubmitStep where
  | asked
  /-- `drain_pending_interrupts` is done. -/
  | drained
  /-- `start_execute_one` has cleared the status; the task is being started. -/
  | cleared
deriving DecidableEq, Repr

/-- Where the worker stands in `worker_main`. -/
inductive WorkerPc where
  | unborn
  | listen
  /-- The loop of `harvest_completed_dispatches` before this core, with what it has found. -/
  | harvest (coreSlot : Nat) (completed : List CoreCompletion)
  | record (completed : List CoreCompletion)
  | wakeHarvested
  /-- In `dispatch_idle_cores`; whether this round has harvested or dispatched something. -/
  | dispatch (progress : Bool) (step : SubmitStep)
  | check
  | wait
deriving DecidableEq, Repr

structure Driver (W : Type) where
  sys : Sys W
  dev : RknpuDev
  pc : WorkerPc
  /-- The registered listener, and whether it was notified. -/
  listener : Option Bool
  /-- An enqueue found the worker not started and has still to spawn it. -/
  spawning : Bool
  /-- Enqueues that have pushed and not notified yet. -/
  enqueueKicks : Nat
  /-- Interrupts that have published and not notified yet. -/
  irqKicks : Nat

def Driver.init (coreCount : Nat) (data : RknpuData) : Driver W where
  sys := Sys.init
  dev := RknpuDev.new coreCount data
  pc := .unborn
  listener := none
  spawning := false
  enqueueKicks := 0
  irqKicks := 0

/-! ## Actions -/

/-- An ioctl other than submit, with what the platform answers. -/
inductive Command where
  | action (flags value : UInt32) (regs : Registers)
  | memCreate (args : RknpuMemCreate) (data : Option DVec)
  | memMap (args : RknpuMemMap)
  | memDestroy (args : RknpuMemDestroy)
  | memSync
  | submitTrace
  | scheduleTrace
  | workerYieldTrace

inductive WorkerAct where
  | listen
  /-- The device is not accessible, and the harvest finds nothing. -/
  | harvestRefused
  | harvest
  | record (timeNs : CoreCompletion → UInt64)
  | wakeHarvested (deviceError : Bool)
  | decide
  | refuse (err : RknpuError)
  | wakeFailed
  | drain
  | clear
  | launch (timeNs : UInt64)
  | check
  | wake

inductive DriverAct (W : Type) where
  | enqueue (submit : RknpuSubmit) (tasks : List RknpuTask) (t0Ns : UInt64) (waiter : W) (timeNs : UInt64)
  | spawn
  | enqueueNotify
  | abort (taskId : RknpuQueueTaskId)
  | take (taskId : RknpuQueueTaskId)
  | irq (coreSlot : Nat) (intStatus : UInt32) (irqTimeNs : UInt64)
  | irqNotify
  | command (cmd : Command)
  | worker (act : WorkerAct)

/-! ## Steps -/

/-- What an ioctl leaves of the device. The trace commands read and write the traces only, and `sync` is empty. -/
def runCommand (dev : RknpuDev) : Command → RknpuDev
  | .action flags value regs =>
      match RknpuAction.tryFrom flags with
      | none => dev
      | some action => (dev.action regs value action).2
  | .memCreate args data =>
      match dev.gem.create args data with
      | none => dev
      | some (_, gem) => { dev with gem }
  | .memMap _ => dev
  | .memDestroy args => { dev with gem := dev.gem.memDestroy args }
  | .memSync => dev
  | .submitTrace | .scheduleTrace | .workerYieldTrace => dev

namespace Driver

/-- `notify_one`. -/
def notify (d : Driver W) : Driver W := { d with listener := d.listener.map fun _ => true }

/-- The next round of the loop drops the listener. -/
def again (d : Driver W) : Driver W := { d with pc := .listen, listener := none }

/-- The parameter checks of `submit_ioctrl_step`. -/
def acceptsDispatch (dev : RknpuDev) (setup : DispatchSetup) : Bool :=
  setup.coreSlot < dev.base.length && setup.taskTotal != 0 && setup.binding.taskIndex < setup.taskTotal

def harvestLimit (dev : RknpuDev) : Nat := min dev.base.length npuMaxCores

/-- One turn of `harvest_completed_dispatches`, or its return. -/
def harvestStep (d : Driver W) (coreSlot : Nat) (completed : List CoreCompletion) : Driver W :=
  if coreSlot < harvestLimit d.dev then
    match d.dev.takeCompletion coreSlot with
    | (none, dev) => { d with dev, pc := .harvest (coreSlot + 1) completed }
    | (some core, dev) =>
        let completion : CoreCompletion :=
          { coreSlot := UInt8.ofNat coreSlot
            observedIrqStatus := core.irqStatus
            irqTimestampNs := core.irqTimestampNs }
        { d with dev, pc := .harvest (coreSlot + 1) (completed ++ [completion]) }
  else if completed.isEmpty then { d with pc := .dispatch false .asked }
  else { d with pc := .record completed }

/-- One locked decision; the round ends when it finds nothing. -/
def decideStep (d : Driver W) (progress : Bool) : Driver W :=
  match d.sys.state.dispatchDecision.1 with
  | some _ => { d with sys := d.sys.decide }
  | none =>
      if progress then { d with sys := d.sys.decide }.again else { d with sys := d.sys.decide, pc := .check }

/-- The state check before waiting. With work but nothing in flight the worker yields and looks again. -/
def checkStep (d : Driver W) : Driver W :=
  if d.sys.state.hasInflight then { d with pc := .wait }
  else if !d.sys.state.hasLiveWork then { d with pc := .wait }
  else d.again

/-- A step of the worker: the position decides what comes next. -/
def workerStep (d : Driver W) : WorkerPc → WorkerAct → Option (Driver W)
  | .listen, .listen => some { d with listener := some false, pc := .harvest 0 [] }
  | .harvest 0 [], .harvestRefused => some { d with pc := .dispatch false .asked }
  | .harvest coreSlot completed, .harvest => some (d.harvestStep coreSlot completed)
  | .record completed, .record timeNs =>
      (d.sys.step (.harvest (completed.map fun c => (c, timeNs c)))).map fun sys =>
        { d with sys, pc := .wakeHarvested }
  | .wakeHarvested, .wakeHarvested deviceError =>
      (d.sys.step (.wake deviceError)).map fun sys => { d with sys, pc := .dispatch true .asked }
  | .dispatch progress .asked, .decide => if d.sys.worker = .free then some (d.decideStep progress) else none
  | .dispatch _ .asked, .refuse err => (d.sys.step (.fail err)).map fun sys => { d with sys }
  | .dispatch _ .asked, .wakeFailed => (d.sys.step (.wake false)).map fun sys => { d with sys }
  | .dispatch progress .asked, .drain =>
      match d.sys.worker with
      | .dispatching setup =>
          if acceptsDispatch d.dev setup then
            some { d with dev := d.dev.clearCompletionShadow setup.coreSlot, pc := .dispatch progress .drained }
          else none
      | _ => none
  | .dispatch progress .drained, .clear =>
      match d.sys.worker with
      | .dispatching setup =>
          some { d with dev := d.dev.clearCompletionShadow setup.coreSlot, pc := .dispatch progress .cleared }
      | _ => none
  | .dispatch _ .cleared, .launch timeNs =>
      (d.sys.step (.launch timeNs)).map fun sys => { d with sys, pc := .dispatch true .asked }
  | .check, .check => some d.checkStep
  | .wait, .wake => if d.listener = some true then some d.again else none
  | _, _ => none

/-- The three interrupt entry points notify if the published status is not zero. -/
def irqStep (d : Driver W) (coreSlot : Nat) (intStatus : UInt32) (irqTimeNs : UInt64) : Driver W :=
  let (status, dev) := d.dev.handleInterruptAt coreSlot intStatus irqTimeNs
  { d with dev, irqKicks := if status ≠ 0 then d.irqKicks + 1 else d.irqKicks }

def step (d : Driver W) : DriverAct W → Option (Driver W)
  | .enqueue submit tasks t0Ns waiter timeNs =>
      some { d with
        sys := d.sys.enqueue (queuedSubmit submit tasks t0Ns) waiter timeNs
        spawning := d.spawning || !d.sys.state.workerStarted
        enqueueKicks := d.enqueueKicks + 1 }
  | .spawn => if d.spawning ∧ d.pc = .unborn then some { d with spawning := false, pc := .listen } else none
  | .enqueueNotify =>
      -- The enqueue that spawns the worker notifies after it has done so.
      if d.spawning.toNat < d.enqueueKicks then
        some { d.notify with enqueueKicks := d.enqueueKicks - 1 }
      else none
  | .abort taskId => some { d with sys := d.sys.abort taskId }
  | .take taskId => some { d with sys := d.sys.take taskId }
  | .irq coreSlot intStatus irqTimeNs =>
      if coreSlot < npuMaxCores then some (d.irqStep coreSlot intStatus irqTimeNs) else none
  | .irqNotify => if 0 < d.irqKicks then some { d.notify with irqKicks := d.irqKicks - 1 } else none
  | .command cmd => some { d with dev := runCommand d.dev cmd }
  | .worker act => d.workerStep d.pc act

end Driver

/-- The driver with a device of `coreCount` cores. -/
def driver (W : Type) (coreCount : Nat) (data : RknpuData) : Machine (Driver W) (DriverAct W) :=
  ⟨Driver.init coreCount data, Driver.step⟩

end Rknpu.Service
