import Rknpu.Service.State

/-!
# The submit ioctl

`handle_submit_ioctl` checks the header, copies the task array in, enqueues the payload and blocks; when it
is woken it takes the terminal record and copies it back.
-/

namespace Rknpu.Service

open Queue

/-- The checks on the header. -/
def checkSubmit (submit : RknpuSubmit) : Except RknpuServiceError Unit :=
  if submit.taskNumber = 0 ∨ submit.taskArrayCpuAddress = 0 then .error .invalidData
  else if !SubmitMeta.dynamicLayoutIsValid submit then .error .invalidData
  else .ok ()

/-- The header passed the checks, and the task array was copied in. -/
structure Accepted (submit : RknpuSubmit) (tasks : List RknpuTask) : Prop where
  checked : checkSubmit submit = .ok ()
  length : tasks.length = submit.taskNumber.toNat

namespace Accepted

variable {submit : RknpuSubmit} {tasks : List RknpuTask}

theorem taskNumber_ne_zero (h : Accepted submit tasks) : submit.taskNumber ≠ 0 := by
  have hchecked := h.checked
  unfold checkSubmit at hchecked
  split at hchecked
  · cases hchecked
  · rename_i hno
    exact fun hzero => hno (.inl hzero)

theorem dynamicLayoutIsValid (h : Accepted submit tasks) : SubmitMeta.dynamicLayoutIsValid submit = true := by
  have hchecked := h.checked
  unfold checkSubmit at hchecked
  split at hchecked
  · cases hchecked
  · split at hchecked
    · cases hchecked
    · rename_i hvalid
      simpa using hvalid

theorem taskTotal (h : Accepted submit tasks) : UInt32.ofNat tasks.length = submit.taskNumber := by
  rw [h.length]
  exact UInt32.ofNat_toNat

end Accepted

/-- `handle_submit_ioctl` up to the enqueue, given what the two copies from userspace answer. The size of the
task array is a product of a `u32` and a small constant, so `checked_mul` finds no overflow. -/
def acceptSubmit (header : Except RknpuServiceError RknpuSubmit) (tasks : Except RknpuServiceError (List RknpuTask)) :
    Except RknpuServiceError (RknpuSubmit × List RknpuTask) := do
  let submit ← header
  checkSubmit submit
  let tasks ← tasks
  return (submit, tasks)

theorem checkSubmit_of_acceptSubmit {header : Except RknpuServiceError RknpuSubmit}
    {tasks : Except RknpuServiceError (List RknpuTask)} {accepted : RknpuSubmit × List RknpuTask}
    (h : acceptSubmit header tasks = .ok accepted) : checkSubmit accepted.1 = .ok () := by
  cases header with
  | error => cases h
  | ok submit =>
      cases hc : checkSubmit submit with
      | error => simp [acceptSubmit, hc, bind, Except.bind] at h
      | ok =>
          cases tasks with
          | error => simp [acceptSubmit, hc, bind, Except.bind] at h
          | ok tasks =>
              simp only [acceptSubmit, hc, bind, Except.bind, pure, Except.pure, Except.ok.injEq] at h
              rw [← h]
              exact hc

/-! ## The end of the call -/

/-- How a submit ioctl ended. -/
inductive Outcome where
  /-- Before the enqueue. -/
  | refused (err : RknpuServiceError)
  /-- `wait_for_submit` found no waiter. -/
  | unregistered
  /-- The wait failed and was aborted. -/
  | interrupted (err : RknpuServiceError)
  /-- `take_terminal_submit` found no record. -/
  | missing
  /-- The record was taken; what the copies of the task array and of the header answered. -/
  | replied (finished : CompletedSubmit) (tasksCopy headerCopy : Except RknpuServiceError Unit)

/-- The header that is copied back: the rebuilt one with the caller's address of the task array. -/
def replyHeader (submit : RknpuSubmit) (finished : CompletedSubmit) : RknpuSubmit :=
  { finished.submit with taskArrayCpuAddress := submit.taskArrayCpuAddress }

/-- What the ioctl returns. -/
def Outcome.result : Outcome → Except RknpuServiceError Nat
  | .refused err => .error err
  | .unregistered => .error .notFound
  | .interrupted err => .error err
  | .missing => .error .invalidData
  | .replied finished tasksCopy headerCopy => do
      tasksCopy
      headerCopy
      match finished.lastError with
      | some err => throw (.driver err)
      | none => return 0

end Rknpu.Service
