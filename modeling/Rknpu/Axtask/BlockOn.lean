import Rknpu.Axtask.RunQueue

/-!
# `block_on_resched`

A translation of `block_on_resched` and `AxWaker` of `axtask/src/future.rs`. The steps of the loop are atomic: clearing
the flag, the poll, the check of the flag, and the section that runs with interrupts off. Between them anything else may
happen: wakes from outside, preemptions, and the turns of the other tasks.
-/

namespace Rknpu.Axtask

variable {τ : Type} [DecidableEq τ]

/-- The next step of the loop. -/
inductive Pc where
  | clear
  | poll
  | check
  | block
  | finished
deriving DecidableEq, Repr

structure Blocking (τ : Type) where
  cpu : Cpu τ
  pc : Pc
  woke : Bool
  /-- The event of the future. -/
  notified : Bool
  /-- The future holds the waker. -/
  stored : Bool
  /-- A wake came after the last poll; nothing reads this. -/
  wokenSincePoll : Bool

inductive BlockAct (τ : Type) where
  | step (pick : τ)
  | wake (notifies keeps : Bool)
  | cpu (a : Cpu.Act τ)

namespace Blocking

/-- `AxWaker::unblock` -/
def unblock (s : Blocking τ) (task : τ) : Blocking τ := { s with woke := true, cpu := s.cpu.unblockTask task }

/-- A wake from outside. It reaches the task through the waker that the future holds, and may take the waker out. One
that does not notify the event is spurious. -/
def wake (s : Blocking τ) (task : τ) (notifies keeps : Bool) : Blocking τ :=
  let s := if s.stored then s.unblock task else s
  { s with notified := s.notified || notifies, stored := s.stored && keeps, wokenSincePoll := true }

/-- A step of the task. The future is ready once its event is notified, and stores the waker otherwise. -/
def step (s : Blocking τ) (task pick : τ) : Option (Blocking τ) :=
  if s.cpu.current = task then
    match s.pc with
    | .clear => some { s with pc := .poll, woke := false }
    | .poll =>
        if s.notified then some { s with pc := .finished, wokenSincePoll := false }
        else some { s with pc := .check, stored := true, wokenSincePoll := false }
    | .check => some { s with pc := if s.woke then .clear else .block }
    | .block =>
        (s.cpu.blockedResched (fun cpu => if s.woke then cpu.unblockTask task else cpu) pick).map fun cpu =>
          { s with pc := .clear, cpu }
    | .finished => none
  else none

end Blocking

/-- The runs of `block_on_resched` among everything else on the CPU. -/
def blockOnResched (caller : Caller τ) : Machine (Blocking τ) (BlockAct τ) where
  init := ⟨caller.cpu, .clear, false, false, false, false⟩
  step s
    | .step pick => s.step caller.task pick
    | .wake notifies keeps => some (s.wake caller.task notifies keeps)
    | .cpu a => (s.cpu.act caller.task a).map fun cpu => { s with cpu }

end Rknpu.Axtask
