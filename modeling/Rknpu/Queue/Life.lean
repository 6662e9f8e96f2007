import Rknpu.Queue.Task

/-!
# The life of one submit

What can happen to one submit, seen on its own: its record, whether it is live, complete or gone, and the
tasks it has in flight. An event is one locked update of the scheduler that concerns the submit, and
`Life.Step` says when it can happen and what it does. Nothing is said about the order in which submits
are served. The scheduler refines this model for every submit it holds (`Service/Lemmas/Tracking.lean`).
-/

namespace Rknpu.Queue

/-- A task of the submit on a physical core. -/
structure Slot where
  core : Nat
  laneSlot : LaneSlot
  taskIndex : UInt32
deriving DecidableEq, Repr

/-- The map that owns the submit: `tasks`, `complete`, or none. -/
inductive Place where
  | live
  | complete
  | gone
deriving DecidableEq, Repr

inductive SubmitEvent where
  /-- A dispatch decision bound the task to a core. -/
  | reserved (slot : Slot)
  /-- The driver accepted the dispatch. -/
  | launched (slot : Slot) (timeNs : UInt64)
  /-- The DMA synchronisation or the driver refused the dispatch. -/
  | failed (slot : Slot) (err : RknpuError)
  /-- A completion was harvested while the submit was live. -/
  | harvested (slot : Slot) (observedIrqStatus : UInt32) (timeNs : UInt64)
  /-- A completion was harvested after the submit had left `tasks`. -/
  | orphaned (slot : Slot) (observedIrqStatus : UInt32)
  /-- The cache invalidation before the wake-up failed. -/
  | readFailed
  /-- The waiter was told. -/
  | woken
  /-- No waiter was left to tell. -/
  | dropped
  /-- The wait was interrupted. -/
  | aborted
  /-- The ioctl took the record. -/
  | taken (task : RknpuQueueTask)
deriving DecidableEq, Repr

structure Life where
  task : RknpuQueueTask
  place : Place
  inflight : List Slot
deriving DecidableEq, Repr

/-- The test of `reclassify_task`. -/
def RknpuQueueTask.isTerminal (t : RknpuQueueTask) : Bool :=
  t.isTerminalSuccess || t.isTerminalFault

/-- Where a live submit stands after `reclassify_task`. -/
def settledPlace (t : RknpuQueueTask) : Place :=
  if t.isTerminal then .complete else .live

/-- The record that reserving a slot leaves. -/
def RknpuQueueTask.reserveSlot (t : RknpuQueueTask) (slot : Slot) : RknpuQueueTask :=
  ((t.clearIntStatus slot.taskIndex).reserveDispatch slot.laneSlot slot.taskIndex).2

/-- The record after a completion, with `t3` set when the submit became terminal. -/
def RknpuQueueTask.harvestSlot (t : RknpuQueueTask) (slot : Slot) (status : UInt32) (timeNs : UInt64) :
    RknpuQueueTask :=
  let t := t.recordCompletion slot.laneSlot slot.taskIndex status
  if t.isTerminal then t.markTerminal timeNs else t

/-- One event of the submit. -/
inductive Life.Step : Life → SubmitEvent → Life → Prop where
  | reserved {t : RknpuQueueTask} {fl : List Slot} {slot : Slot} :
      slot.core < npuMaxCores → slot.core ∉ fl.map Slot.core → t.allowsCore slot.core = true →
      t.nextDispatchableTask = some (slot.laneSlot, slot.taskIndex) →
      Step ⟨t, .live, fl⟩ (.reserved slot) ⟨t.reserveSlot slot, .live, slot :: fl⟩
  | launched {t : RknpuQueueTask} {fl : List Slot} {slot : Slot} {timeNs : UInt64} :
      slot ∈ fl → Step ⟨t, .live, fl⟩ (.launched slot timeNs) ⟨t.markFirstDispatch timeNs, .live, fl⟩
  | failed {t : RknpuQueueTask} {fl : List Slot} {slot : Slot} {err : RknpuError} :
      slot ∈ fl →
      Step ⟨t, .live, fl⟩ (.failed slot err)
        ⟨t.failDispatch slot.laneSlot err, settledPlace (t.failDispatch slot.laneSlot err), fl.erase slot⟩
  | harvested {t : RknpuQueueTask} {fl : List Slot} {slot : Slot} {status : UInt32} {timeNs : UInt64} :
      slot ∈ fl →
      Step ⟨t, .live, fl⟩ (.harvested slot status timeNs)
        ⟨t.harvestSlot slot status timeNs,
          settledPlace (t.recordCompletion slot.laneSlot slot.taskIndex status), fl.erase slot⟩
  | orphaned {t : RknpuQueueTask} {p : Place} {fl : List Slot} {slot : Slot} {status : UInt32} :
      p ≠ .live → slot ∈ fl → Step ⟨t, p, fl⟩ (.orphaned slot status) ⟨t, p, fl.erase slot⟩
  | readFailed {t : RknpuQueueTask} {fl : List Slot} :
      Step ⟨t, .complete, fl⟩ .readFailed ⟨{ t with lastError := some .memoryError }, .complete, fl⟩
  | woken {t : RknpuQueueTask} {fl : List Slot} : Step ⟨t, .complete, fl⟩ .woken ⟨t, .complete, fl⟩
  | dropped {t : RknpuQueueTask} {fl : List Slot} : Step ⟨t, .complete, fl⟩ .dropped ⟨t, .gone, fl⟩
  | abortedLive {t : RknpuQueueTask} {fl : List Slot} :
      Step ⟨t, .live, fl⟩ .aborted
        ⟨{ t with lastError := some .interrupted },
          if t.hasRunningTasks then .live else .gone, fl⟩
  | abortedDone {t : RknpuQueueTask} {fl : List Slot} : Step ⟨t, .complete, fl⟩ .aborted ⟨t, .gone, fl⟩
  | taken {t : RknpuQueueTask} {fl : List Slot} : Step ⟨t, .complete, fl⟩ (.taken t) ⟨t, .gone, fl⟩

/-- A submit as `enqueue_submit` leaves it. -/
def Life.start (id : RknpuQueueTaskId) (queued : RknpuQueuedSubmit) (timeNs : UInt64) : Life :=
  ⟨(RknpuQueueTask.new id queued).markEnqueued timeNs, .live, []⟩

/-- The events that led from enqueue to the present state. -/
inductive Life.Reach (id : RknpuQueueTaskId) (queued : RknpuQueuedSubmit) :
    List SubmitEvent → Life → Prop where
  | start (timeNs : UInt64) : Reach id queued [] (Life.start id queued timeNs)
  | step {evs : List SubmitEvent} {ℓ ℓ' : Life} {e : SubmitEvent} :
      Reach id queued evs ℓ → Life.Step ℓ e ℓ' → Reach id queued (evs ++ [e]) ℓ'

/-- Several events of the submit. -/
inductive Life.Steps : Life → List SubmitEvent → Life → Prop where
  | nil {ℓ : Life} : Steps ℓ [] ℓ
  | cons {ℓ ℓ₁ ℓ₂ : Life} {e : SubmitEvent} {evs : List SubmitEvent} :
      Life.Step ℓ e ℓ₁ → Steps ℓ₁ evs ℓ₂ → Steps ℓ (e :: evs) ℓ₂

theorem Life.Steps.append {ℓ ℓ₁ ℓ₂ : Life} {evs evs' : List SubmitEvent} (h : Life.Steps ℓ evs ℓ₁)
    (h' : Life.Steps ℓ₁ evs' ℓ₂) : Life.Steps ℓ (evs ++ evs') ℓ₂ := by
  induction h with
  | nil => exact h'
  | cons hstep _ ih => exact .cons hstep (ih h')

theorem Life.Reach.steps {id : RknpuQueueTaskId} {queued : RknpuQueuedSubmit} {evs evs' : List SubmitEvent}
    {ℓ ℓ' : Life} (h : Life.Reach id queued evs ℓ) (hs : Life.Steps ℓ evs' ℓ') :
    Life.Reach id queued (evs ++ evs') ℓ' := by
  induction hs generalizing evs with
  | nil => simpa using h
  | cons hstep _ ih => simpa using ih (h.step hstep)

/-! ## Ledgers of a history -/

/-- Tasks reserved, in order. -/
def reservedSlots (evs : List SubmitEvent) : List Slot :=
  evs.filterMap fun
    | .reserved slot => some slot
    | _ => none

/-- Tasks accepted by the driver, in order. -/
def launchedSlots (evs : List SubmitEvent) : List Slot :=
  evs.filterMap fun
    | .launched slot _ => some slot
    | _ => none

/-- Tasks whose completion was harvested for the live submit, in order. -/
def harvestedSlots (evs : List SubmitEvent) : List Slot :=
  evs.filterMap fun
    | .harvested slot _ _ => some slot
    | _ => none

/-- Reservations that were taken back by an error. -/
def failedSlots (evs : List SubmitEvent) : List Slot :=
  evs.filterMap fun
    | .failed slot _ => some slot
    | _ => none

/-- Tasks whose core was given back, in order. -/
def releasedSlots (evs : List SubmitEvent) : List Slot :=
  evs.filterMap fun
    | .failed slot _ | .harvested slot _ _ | .orphaned slot _ => some slot
    | _ => none

end Rknpu.Queue
