import Rknpu.Axtask.RunQueue

/-!
# Waiting for a submit

A translation of `StarrySubmitWaiter` in `rknpu-starry-adapter/src/card1.rs`, with what it calls: `WaitQueue` of
`core/src/futex.rs`, and `block_on` and `interruptible` of `axtask/src/future.rs`. One thread waits, on a single CPU.
The sections that hold the lock of the queue or run with interrupts off are atomic, and so is each access to a flag or
to the waker for interrupts. Between two of them anything else may happen, also between the two halves of `complete` and
of `interrupt`.
-/

namespace Rknpu.Starry

open Axtask

def submitWaitMask : UInt32 := 0xffffffff

/-- An entry of the wait queue. Its waker is the one of a call of `block_on`. -/
structure Entry where
  call : Nat
  bitset : UInt32
deriving DecidableEq, Repr

/-- `WaitQueue::wake`: the entries that stay, and those that are woken. -/
def wakeEntries (mask : UInt32) : Nat → List Entry → List Entry × List Entry
  | _, [] => ([], [])
  | count, entry :: queue =>
      if count = 0 ∨ entry.bitset &&& mask = 0 then
        let (kept, woken) := wakeEntries mask count queue
        (entry :: kept, woken)
      else
        let (kept, woken) := wakeEntries mask (count - 1) queue
        (kept, entry :: woken)

/-- Where the thread stands. -/
inductive WaitPc where
  /-- At the condition of the loop of `wait`. -/
  | check
  /-- At a poll inside `block_on`; in the first one `wait_if` still has its condition. -/
  | poll (first : Bool)
  /-- The thread was not interrupted, and leaves its waker for interrupts. -/
  | register (first : Bool)
  /-- At the lock of the queue. -/
  | lock
  /-- The poll was pending. -/
  | pending
  /-- It was, and the flag was not set. -/
  | block
  | returned (interrupted : Bool)
deriving DecidableEq, Repr

structure Waiter (τ : Type) where
  cpu : Cpu τ
  pc : WaitPc
  done : Bool
  queue : List Entry
  /-- The calls of `wait_if` so far. The last one's waker has the flag `woke`. -/
  calls : Nat
  woke : Bool
  interrupted : Bool
  interruptWaker : Option Nat
  /-- The calls of `interrupt` that have set the flag and not woken the thread yet. -/
  interrupting : Nat
  /-- The calls of `complete` that have stored `done` and not woken the queue yet. -/
  completing : Nat

inductive WaitAct (τ : Type) where
  | step (pick : τ)
  | store
  | wake
  | interrupt
  | wakeInterrupted
  | cpu (a : Cpu.Act τ)

namespace Waiter

variable {τ : Type} [DecidableEq τ]

/-- The wakers of some calls are invoked. -/
def wakeCalls (s : Waiter τ) (task : τ) (calls : List Nat) : Waiter τ :=
  if calls = [] then s
  else { s with woke := s.woke || calls.contains s.calls, cpu := s.cpu.unblockTask task }

/-- A step of the thread in `wait`. -/
def step (s : Waiter τ) (task pick : τ) : Option (Waiter τ) :=
  if s.cpu.current = task then
    match s.pc with
    | .check =>
        if s.done then some { s with pc := .returned false }
        else some { s with pc := .poll true, calls := s.calls + 1, woke := false }
    | .poll first =>
        if s.interrupted then some { s with pc := .returned true, interrupted := false }
        else some { s with pc := .register first }
    | .register first => some { s with pc := if first then .lock else .check, interruptWaker := some s.calls }
    | .lock =>
        if s.done then some { s with pc := .check }
        else some { s with pc := .pending, queue := s.queue ++ [⟨s.calls, submitWaitMask⟩] }
    | .pending =>
        if s.woke then (s.cpu.yieldCurrent pick).map fun cpu => { s with pc := .poll false, cpu }
        else some { s with pc := .block }
    | .block =>
        -- The thread wakes itself as it blocks.
        (s.cpu.blockedResched (fun cpu => cpu.unblockTask task) pick).map fun cpu =>
          { s with pc := .poll false, woke := true, cpu }
    | .returned _ => none
  else none

/-- The first half of `complete`. -/
def store (s : Waiter τ) : Waiter τ := { s with done := true, completing := s.completing + 1 }

/-- Its second half, with `usize::MAX` as the count. -/
def wake (s : Waiter τ) (task : τ) : Option (Waiter τ) :=
  if s.completing = 0 then none
  else
    let (kept, woken) := wakeEntries submitWaitMask (2 ^ 64 - 1) s.queue
    some { s.wakeCalls task (woken.map Entry.call) with queue := kept, completing := s.completing - 1 }

/-- The first half of `TaskInner::interrupt`. -/
def interrupt (s : Waiter τ) : Waiter τ := { s with interrupted := true, interrupting := s.interrupting + 1 }

/-- Its second half, which takes the waker out. -/
def wakeInterrupted (s : Waiter τ) (task : τ) : Option (Waiter τ) :=
  if s.interrupting = 0 then none
  else
    some { s.wakeCalls task s.interruptWaker.toList with
      interruptWaker := none, interrupting := s.interrupting - 1 }

end Waiter

/-- The runs of `wait` by one thread among everything else on the CPU. -/
def submitWaiter {τ : Type} [DecidableEq τ] (caller : Caller τ) : Machine (Waiter τ) (WaitAct τ) where
  init :=
    { cpu := caller.cpu, pc := .check, done := false, queue := [], calls := 0, woke := false, interrupted := false,
      interruptWaker := none, interrupting := 0, completing := 0 }
  step s
    | .step pick => s.step caller.task pick
    | .store => some s.store
    | .wake => s.wake caller.task
    | .interrupt => some s.interrupt
    | .wakeInterrupted => s.wakeInterrupted caller.task
    | .cpu a => (s.cpu.act caller.task a).map fun cpu => { s with cpu }

end Rknpu.Starry
