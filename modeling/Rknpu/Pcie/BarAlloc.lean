import Rknpu.Lib.Machine
import Rknpu.Pcie.IntervalTree

/-!
# Clients of the allocator

The allocator with the ranges that it has handed out and that have not been given back, as a machine; and
`rdif-pcie/src/bar_alloc.rs`, which keeps an allocator for each kind of memory window and places base address registers.
-/

namespace Rknpu.Pcie

/-! ## Allocations over time -/

/-- The allocator, and the ranges that clients hold. -/
structure Client where
  allocator : AddressAllocator
  live : List RangeInclusive

inductive AllocAct where
  | allocate (size alignment : UInt64) (policy : AllocPolicy)
  | free (key : RangeInclusive)
deriving DecidableEq

/-- A panic is no step. -/
def Client.step (s : Client) : AllocAct → Option Client
  | .allocate size alignment policy =>
      match s.allocator.allocate size.toNat alignment.toNat policy with
      | (.ok range, allocator) => some ⟨allocator, range :: s.live⟩
      | (.error (.error _), allocator) => some ⟨allocator, s.live⟩
      | (.error .panic, _) => none
  | .free key =>
      match s.allocator.free key with
      | (.ok _, allocator) => some ⟨allocator, s.live.erase key⟩
      | (.error (.error _), allocator) => some ⟨allocator, s.live⟩
      | (.error .panic, _) => none

def allocations (a : AddressAllocator) : Machine Client AllocAct where
  init := ⟨a, []⟩
  step := Client.step

/-- An exact match is asked for in a free slot only, and no slot is freed for which the addresses next to it lie partly
outside the address space. -/
def AllocAct.Sound (s : Client) : AllocAct → Prop
  | .allocate _ _ (.exactMatch start) =>
      ∀ slot ∈ s.allocator.tree.toList, slot.key.start ≤ start ∧ start ≤ slot.key.last → slot.state = .free
  | .allocate _ _ _ => True
  | .free key => ∀ slot ∈ s.allocator.tree.toList, slot.key = key → key.start ≠ 1 ∧ key.last ≠ 2 ^ 64 - 2

instance AllocAct.decidableSound (s : Client) : (act : AllocAct) → Decidable (act.Sound s)
  | .allocate _ _ (.exactMatch start) => inferInstanceAs (Decidable (∀ slot ∈ s.allocator.tree.toList,
      slot.key.start ≤ start ∧ start ≤ slot.key.last → slot.state = .free))
  | .allocate _ _ .firstMatch => isTrue trivial
  | .allocate _ _ .lastMatch => isTrue trivial
  | .free key => inferInstanceAs (Decidable (∀ slot ∈ s.allocator.tree.toList,
      slot.key = key → key.start ≠ 1 ∧ key.last ≠ 2 ^ 64 - 2))

/-! ## Base address registers -/

/-- `PciMem32` and `PciMem64` -/
structure PciMem where
  address : Nat
  size : Nat
deriving DecidableEq, Repr

structure SimpleBarAllocator where
  mem32 : Option AddressAllocator := none
  mem64 : Option AddressAllocator := none
  mem32Pref : Option AddressAllocator := none
  mem64Pref : Option AddressAllocator := none

/-- A window allocates a block of the given size, aligned to its size. A panic counts as a failure; in a well-formed tree
there is none. -/
def AddressAllocator.place (a : AddressAllocator) (size : Nat) : Option Nat × AddressAllocator :=
  match a.allocate size size .firstMatch with
  | (.ok range, a) => (some range.start, a)
  | (.error _, a) => (none, a)

/-- A prefetchable request goes to the prefetchable window first, and then to the other one. -/
def placeBar (pref window : Option AddressAllocator) (size : Nat) (prefetchable : Bool) :
    Option Nat × Option AddressAllocator × Option AddressAllocator :=
  match prefetchable, pref with
  | true, some p =>
      match p.place size with
      | (some address, p) => (some address, some p, window)
      | (none, p) =>
          match window with
          | some w => let (address, w) := w.place size; (address, some p, some w)
          | none => (none, some p, none)
  | _, _ =>
      match window with
      | some w => let (address, w) := w.place size; (address, pref, some w)
      | none => (none, pref, none)

namespace SimpleBarAllocator

def setMem32 (b : SimpleBarAllocator) (space : PciMem) (prefetchable : Bool) : Except Error SimpleBarAllocator := do
  let a ← AddressAllocator.new space.address space.size
  .ok (if prefetchable then { b with mem32Pref := some a } else { b with mem32 := some a })

def setMem64 (b : SimpleBarAllocator) (space : PciMem) (prefetchable : Bool) : Except Error SimpleBarAllocator := do
  let a ← AddressAllocator.new space.address space.size
  .ok (if prefetchable then { b with mem64Pref := some a } else { b with mem64 := some a })

/-- The address is cut to 32 bits. -/
def allocMemory32 (b : SimpleBarAllocator) (size : Nat) (prefetchable : Bool) : Option Nat × SimpleBarAllocator :=
  let (address, pref, window) := placeBar b.mem32Pref b.mem32 size prefetchable
  (address.map (· % 2 ^ 32), { b with mem32Pref := pref, mem32 := window })

def allocMemory64 (b : SimpleBarAllocator) (size : Nat) (prefetchable : Bool) : Option Nat × SimpleBarAllocator :=
  let (address, pref, window) := placeBar b.mem64Pref b.mem64 size prefetchable
  (address, { b with mem64Pref := pref, mem64 := window })

end SimpleBarAllocator

end Rknpu.Pcie
