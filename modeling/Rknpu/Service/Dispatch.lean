import Rknpu.Lib.Loop
import Rknpu.Service.System

/-!
# The dispatch loop

`dispatch_idle_cores` as a function: it takes locked decisions until one finds nothing. What the driver answers
and what other threads do between two sections of the worker are given turn by turn.
-/

namespace Rknpu.Service

open Queue

variable {W : Type}

/-- A section that another thread runs. -/
inductive Outside (W : Type) where
  | enqueue (submit : RknpuSubmit) (tasks : List RknpuTask) (t0Ns : UInt64) (waiter : W) (timeNs : UInt64)
  | abort (taskId : RknpuQueueTaskId)
  | take (taskId : RknpuQueueTaskId)

def Outside.act : Outside W → Act W
  | .enqueue submit tasks t0Ns waiter timeNs => .enqueue submit tasks t0Ns waiter timeNs
  | .abort taskId => .abort taskId
  | .take taskId => .take taskId

def Sys.outsideStep (y : Sys W) : Outside W → Sys W
  | .enqueue submit tasks t0Ns waiter timeNs => y.enqueue (queuedSubmit submit tasks t0Ns) waiter timeNs
  | .abort taskId => y.abort taskId
  | .take taskId => y.take taskId

/-- Other threads run while the worker is between two sections. -/
def Sys.outside (y : Sys W) (sections : List (Outside W)) : Sys W := sections.foldl outsideStep y

/-- What happens around one decision of the loop. -/
structure Turn (W : Type) where
  beforeDecision : List (Outside W)
  /-- The answer of `comfirm_write_all`, if it is asked. -/
  confirm : Except RknpuServiceError Unit
  /-- The answer of `submit_ioctrl_step`, if it is asked; the time is taken before the call. -/
  submit : Except RknpuServiceError UInt64
  beforeAnswer : List (Outside W)
  beforeWake : List (Outside W)

/-- Each submit is synchronised once per call. -/
def Turn.answer (turn : Turn W) (confirmed : Bool) : Except RknpuServiceError UInt64 :=
  if confirmed then turn.submit else turn.confirm.bind fun _ => turn.submit

/-- The local variables of the loop. -/
structure DispatchLoop (W : Type) where
  sys : Sys W
  dispatched : Bool
  confirmedSubmitIds : List RknpuQueueTaskId

/-- `wake_terminal_tasks` after a failed dispatch, without a cache invalidation. -/
def Sys.wakeFailed (y : Sys W) : Sys W :=
  match y.worker with
  | .waking taskIds _ => y.wake taskIds false
  | _ => y

/-- One turn of the loop: it returns when the decision finds nothing. -/
def DispatchLoop.turn (turns : Nat → Turn W) (k : Nat) (l : DispatchLoop W) :
    DispatchLoop W ⊕ (Bool × Sys W) :=
  let y := l.sys.outside (turns k).beforeDecision
  match y.state.dispatchDecision.1 with
  | none => .inr (l.dispatched, y.decide)
  | some setup =>
      let y := y.decide.outside (turns k).beforeAnswer
      let confirmedSubmitIds := setup.binding.taskId :: l.confirmedSubmitIds
      match (turns k).answer (setup.binding.taskId ∈ l.confirmedSubmitIds) with
      | .ok timeNs => .inl { sys := y.launch setup timeNs, dispatched := true, confirmedSubmitIds }
      | .error err =>
          .inl
            { sys := ((y.fail setup err.toDriverError).outside (turns k).beforeWake).wakeFailed
              dispatched := l.dispatched
              confirmedSubmitIds }

/-- `dispatch_idle_cores`: whether a task was dispatched, and the state after the last decision, together with
the number of dispatch attempts. -/
def Sys.dispatchIdleCores (turns : Nat → Turn W) (fuel : Nat) (y : Sys W) : Option (Nat × Bool × Sys W) :=
  loopFor (DispatchLoop.turn turns) fuel 0 { sys := y, dispatched := false, confirmedSubmitIds := [] }

end Rknpu.Service
