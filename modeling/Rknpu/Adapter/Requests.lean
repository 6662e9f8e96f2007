import Rknpu.Device.Device
import Rknpu.Lib.Prog
import Rknpu.Service.Ioctl

/-!
# What an ioctl asks of the kernel

An ioctl handler is a program over the requests below: it copies from and to user memory, allocates, locks the device,
hands a submit to the scheduler, reads a trace, or panics. Where a copy goes and how long it is is part of the request;
the bytes that go out are not. What a copy brings in is read from memory as it is when the ioctl starts.
-/

namespace Rknpu.Adapter

open Queue Device Service

/-! ## Memory -/

/-- Memory as privileged loads see it. -/
abbrev Memory : Type := UInt64 → UInt8

namespace Memory

def u32 (mem : Memory) (addr : UInt64) : UInt32 :=
  (mem addr).toUInt32 ||| (mem (addr + 1)).toUInt32 <<< 8 ||| (mem (addr + 2)).toUInt32 <<< 16 |||
    (mem (addr + 3)).toUInt32 <<< 24

def u64 (mem : Memory) (addr : UInt64) : UInt64 :=
  (mem.u32 addr).toUInt64 ||| (mem.u32 (addr + 4)).toUInt64 <<< 32

end Memory

/-! ## Requests -/

inductive VfsError where
  | invalidInput
  | invalidData
  | notFound
  | addressInUse
  | badIoctl
  | interrupted
deriving DecidableEq, Repr

/-- The kernel side of a user copy: the 128 bytes on the stack, or a value of the size that is copied. -/
inductive KernelBuf where
  | stackData
  | value
deriving DecidableEq, Repr

inductive Allocation where
  | vec (bytes : Nat)
  /-- The shared waiter and the nodes of the maps and queues. -/
  | nodes
  | dma (size : UInt64)
deriving DecidableEq, Repr

inductive TraceKind where
  | submit
  | workerYield
  | schedule
deriving DecidableEq, Repr

inductive Request where
  | copyFromUser (buf : KernelBuf) (src : UInt64) (size : Nat)
  | copyToUser (dst : UInt64) (buf : KernelBuf) (size : Nat)
  | alloc (what : Allocation)
  /-- `DVec::zeros`. -/
  | dmaZeros (size : UInt64)
  | lockDevice
  | unlockDevice (dev : RknpuDev)
  | registers
  /-- `enqueue_submit`, `wait_for_submit` and `take_terminal_submit`. -/
  | blockingSubmit (submit : RknpuSubmit) (tasks : List RknpuTask)
  | resetTrace (kind : TraceKind)
  /-- How many records a snapshot of a trace gets. -/
  | snapshotTrace (kind : TraceKind) (capacity : Nat)
  | panic

abbrev Answer : Request → Type
  | .copyFromUser _ _ _ | .copyToUser _ _ _ | .alloc _ => Bool
  | .dmaZeros _ => Option DVec
  | .lockDevice => Except RknpuServiceError RknpuDev
  | .registers => Registers
  | .blockingSubmit _ _ => Except RknpuServiceError CompletedSubmit
  | .snapshotTrace _ _ => Nat
  | .unlockDevice _ | .resetTrace _ => Unit
  | .panic => Empty

/-- The answers that can come, given what the allocators can do. -/
def Possible (heap : Allocation → Bool → Prop) : ∀ r, Answer r → Prop
  | .alloc what, granted => heap what granted
  | .dmaZeros size, data => heap (.dma size) data.isSome
  | .snapshotTrace _ capacity, count => count ≤ capacity
  | _, _ => True

abbrev Ioctl (ε α : Type) : Type := Prog Request Answer ε α

variable {ε α : Type}

/-! ## Single requests -/

def panic : Ioctl ε α := .call .panic nofun

def copyFromUser (buf : KernelBuf) (src : UInt64) (size : Nat) : Ioctl VfsError Unit := do
  if ← .ask (.copyFromUser buf src size) then return () else .fail .invalidData

def copyToUser (dst : UInt64) (buf : KernelBuf) (size : Nat) : Ioctl VfsError Unit := do
  if ← .ask (.copyToUser dst buf size) then return () else .fail .invalidData

/-- The space of a vector; nothing is asked for when it is empty. -/
def allocate (bytes : Nat) : Ioctl ε Unit := do
  if bytes = 0 then return ()
  else if ← .ask (.alloc (.vec bytes)) then return ()
  else panic

def allocateNodes : Ioctl ε Unit := do
  if ← .ask (.alloc .nodes) then return () else panic

/-- `try_reserve_exact`. -/
def tryReserve (bytes : Nat) : Ioctl RknpuServiceError Unit := do
  if bytes = 0 then return ()
  else if ← .ask (.alloc (.vec bytes)) then return ()
  else .fail (.driver .memoryError)

def dmaZeros (size : UInt64) : Ioctl ε (Option DVec) := Prog.ask (Request.dmaZeros size)

def unwrap : Option α → Ioctl ε α
  | some a => return a
  | none => panic

def lockDevice : Ioctl RknpuServiceError RknpuDev := do
  .ofExcept (← Prog.ask Request.lockDevice)

def registers : Ioctl ε Registers := Prog.ask Request.registers

def blockingSubmit (submit : RknpuSubmit) (tasks : List RknpuTask) : Ioctl RknpuServiceError CompletedSubmit := do
  .ofExcept (← Prog.ask (Request.blockingSubmit submit tasks))

def unlockDevice (dev : RknpuDev) : Ioctl ε Unit := Prog.ask (Request.unlockDevice dev)

def resetTrace (kind : TraceKind) : Ioctl ε Unit := Prog.ask (Request.resetTrace kind)

def snapshotTrace (kind : TraceKind) (capacity : Nat) : Ioctl ε Nat := Prog.ask (Request.snapshotTrace kind capacity)

/-! ## Rules for them -/

section

variable {heap : Allocation → Bool → Prop} {p : Request → Prop}

@[simp] theorem calls_panic {ok : ∀ r, Answer r → Prop} : (panic : Ioctl ε α).Calls ok p ↔ p .panic :=
  and_iff_left fun a => a.elim

@[simp] theorem not_returns_panic {ok : ∀ r, Answer r → Prop} {a : α} : ¬ (panic : Ioctl ε α).Returns ok a :=
  fun ⟨e, _⟩ => e.elim

@[simp] theorem calls_copyFromUser {buf : KernelBuf} {src : UInt64} {size : Nat} :
    (copyFromUser buf src size).Calls (Possible heap) p ↔ p (.copyFromUser buf src size) := by
  simp [copyFromUser]

@[simp] theorem returns_copyFromUser {buf : KernelBuf} {src : UInt64} {size : Nat} {u : Unit} :
    (copyFromUser buf src size).Returns (Possible heap) u := by
  simp [copyFromUser, Possible]

@[simp] theorem calls_copyToUser {dst : UInt64} {buf : KernelBuf} {size : Nat} :
    (copyToUser dst buf size).Calls (Possible heap) p ↔ p (.copyToUser dst buf size) := by
  simp [copyToUser]

@[simp] theorem returns_copyToUser {dst : UInt64} {buf : KernelBuf} {size : Nat} {u : Unit} :
    (copyToUser dst buf size).Returns (Possible heap) u := by
  simp [copyToUser, Possible]

@[simp] theorem calls_allocate {bytes : Nat} : (allocate bytes : Ioctl ε Unit).Calls (Possible heap) p ↔
    (bytes ≠ 0 → p (.alloc (.vec bytes)) ∧ (heap (.vec bytes) false → p .panic)) := by
  simp [allocate, Possible]

@[simp] theorem returns_allocate {bytes : Nat} {u : Unit} :
    (allocate bytes : Ioctl ε Unit).Returns (Possible heap) u ↔ (bytes ≠ 0 → heap (.vec bytes) true) := by
  simp [allocate, Possible]
  tauto

@[simp] theorem calls_allocateNodes : (allocateNodes : Ioctl ε Unit).Calls (Possible heap) p ↔
    p (.alloc .nodes) ∧ (heap .nodes false → p .panic) := by
  simp [allocateNodes, Possible]

@[simp] theorem returns_allocateNodes {u : Unit} :
    (allocateNodes : Ioctl ε Unit).Returns (Possible heap) u ↔ heap .nodes true := by
  simp [allocateNodes, Possible]

@[simp] theorem calls_tryReserve {bytes : Nat} : (tryReserve bytes).Calls (Possible heap) p ↔
    (bytes ≠ 0 → p (.alloc (.vec bytes))) := by
  simp [tryReserve]

@[simp] theorem returns_tryReserve {bytes : Nat} {u : Unit} :
    (tryReserve bytes).Returns (Possible heap) u ↔ (bytes ≠ 0 → heap (.vec bytes) true) := by
  simp [tryReserve, Possible]
  tauto

@[simp] theorem calls_dmaZeros {size : UInt64} :
    (dmaZeros size : Ioctl ε (Option DVec)).Calls (Possible heap) p ↔ p (.dmaZeros size) :=
  Prog.calls_ask

@[simp] theorem returns_dmaZeros {size : UInt64} {data : Option DVec} :
    (dmaZeros size : Ioctl ε (Option DVec)).Returns (Possible heap) data ↔ heap (.dma size) data.isSome :=
  Prog.returns_ask

@[simp] theorem calls_unwrap {ok : ∀ r, Answer r → Prop} {a : Option α} :
    (unwrap a : Ioctl ε α).Calls ok p ↔ (a = none → p .panic) := by
  cases a <;> simp [unwrap]

@[simp] theorem returns_unwrap {ok : ∀ r, Answer r → Prop} {a : Option α} {b : α} :
    (unwrap a : Ioctl ε α).Returns ok b ↔ a = some b := by
  cases a <;> simp [unwrap]

@[simp] theorem calls_lockDevice : lockDevice.Calls (Possible heap) p ↔ p .lockDevice := by
  simp [lockDevice]

@[simp] theorem returns_lockDevice {dev : RknpuDev} : lockDevice.Returns (Possible heap) dev := by
  simp only [lockDevice, Prog.returns_bind, Prog.returns_ask, Prog.returns_ofExcept]
  exact ⟨.ok dev, trivial, rfl⟩

@[simp] theorem calls_registers : (registers : Ioctl ε Registers).Calls (Possible heap) p ↔ p .registers :=
  Prog.calls_ask

@[simp] theorem returns_registers {regs : Registers} : (registers : Ioctl ε Registers).Returns (Possible heap) regs :=
  Prog.returns_ask.mpr trivial

@[simp] theorem calls_blockingSubmit {submit : RknpuSubmit} {tasks : List RknpuTask} :
    (blockingSubmit submit tasks).Calls (Possible heap) p ↔ p (.blockingSubmit submit tasks) := by
  simp [blockingSubmit]

@[simp] theorem returns_blockingSubmit {submit : RknpuSubmit} {tasks : List RknpuTask} {finished : CompletedSubmit} :
    (blockingSubmit submit tasks).Returns (Possible heap) finished := by
  simp only [blockingSubmit, Prog.returns_bind, Prog.returns_ask, Prog.returns_ofExcept]
  exact ⟨.ok finished, trivial, rfl⟩

@[simp] theorem calls_unlockDevice {dev : RknpuDev} :
    (unlockDevice dev : Ioctl ε Unit).Calls (Possible heap) p ↔ p (.unlockDevice dev) :=
  Prog.calls_ask

@[simp] theorem returns_unlockDevice {dev : RknpuDev} {u : Unit} :
    (unlockDevice dev : Ioctl ε Unit).Returns (Possible heap) u :=
  Prog.returns_ask.mpr trivial

@[simp] theorem calls_resetTrace {kind : TraceKind} :
    (resetTrace kind : Ioctl ε Unit).Calls (Possible heap) p ↔ p (.resetTrace kind) :=
  Prog.calls_ask

@[simp] theorem returns_resetTrace {kind : TraceKind} {u : Unit} :
    (resetTrace kind : Ioctl ε Unit).Returns (Possible heap) u :=
  Prog.returns_ask.mpr trivial

@[simp] theorem calls_snapshotTrace {kind : TraceKind} {capacity : Nat} :
    (snapshotTrace kind capacity : Ioctl ε Nat).Calls (Possible heap) p ↔ p (.snapshotTrace kind capacity) :=
  Prog.calls_ask

@[simp] theorem returns_snapshotTrace {kind : TraceKind} {capacity count : Nat} :
    (snapshotTrace kind capacity : Ioctl ε Nat).Returns (Possible heap) count ↔ count ≤ capacity :=
  Prog.returns_ask

end

end Rknpu.Adapter
