import Rknpu.Lib.Avl

/-!
# The allocator of PCIe address windows

A translation of `rdif-pcie/src/addr_alloc`: the interval tree and `AddressAllocator` over it. `u64` values are natural
numbers below `2 ^ 64`. The tree is a state that an operation may leave changed when it fails, as in the source.
-/

namespace Rknpu.Pcie

/-! ## Machine words -/

def checkedAdd (a b : Nat) : Option Nat := if a + b < 2 ^ 64 then some (a + b) else none

def checkedSub (a b : Nat) : Option Nat := if b ≤ a then some (a - b) else none

def isPowerOfTwo (a : Nat) : Bool := a != 0 && 2 ^ a.log2 == a

/-! ## Ranges -/

/-- A closed interval. Its length fits into a word. -/
structure RangeInclusive where
  start : Nat
  last : Nat
  le : start ≤ last
  lt : last < 2 ^ 64
  notAll : ¬(start = 0 ∧ last = 2 ^ 64 - 1)
deriving DecidableEq

inductive NodeState where
  | free
  | allocated
deriving DecidableEq, Repr

inductive Error where
  | overflow
  | resourceNotAvailable
  | invalidRange (start last : Nat)
  | invalidAlignment
  | overlap (key existing : RangeInclusive)
  | invalidStateTransition (key : RangeInclusive) (state : NodeState)
  | unalignedAddress
  | underflow
  | invalidSize (size : Nat)
deriving DecidableEq

/-- An operation fails with an error, or panics. -/
inductive Failure where
  | error (e : Error)
  | panic
deriving DecidableEq

namespace RangeInclusive

def new (start last : Nat) : Except Error RangeInclusive :=
  if h : start ≤ last ∧ last < 2 ^ 64 ∧ ¬(start = 0 ∧ last = 2 ^ 64 - 1) then .ok ⟨start, last, h.1, h.2.1, h.2.2⟩
  else .error (.invalidRange start last)

def len (r : RangeInclusive) : Nat := r.last - r.start + 1

def overlaps (r other : RangeInclusive) : Bool := max r.start other.start ≤ min r.last other.last

def contains (r other : RangeInclusive) : Bool := r.start ≤ other.start && other.last ≤ r.last

/-- The derived order: by the start, then by the end. -/
def cmp (r other : RangeInclusive) : Ordering := (compare r.start other.start).then (compare r.last other.last)

end RangeInclusive

/-! ## Constraints -/

inductive AllocPolicy where
  | firstMatch
  | lastMatch
  | exactMatch (start : Nat)
deriving DecidableEq, Repr

structure Constraint where
  size : Nat
  align : Nat
  policy : AllocPolicy
deriving DecidableEq, Repr

def Constraint.new (size align : Nat) (policy : AllocPolicy) : Except Error Constraint :=
  if size = 0 then .error (.invalidSize size)
  else if !isPowerOfTwo align || align == 0 then .error .invalidAlignment
  else
    match policy with
    | .exactMatch start => if start % align ≠ 0 then .error .unalignedAddress else .ok ⟨size, align, policy⟩
    | .firstMatch | .lastMatch => .ok ⟨size, align, policy⟩

def alignDown (address alignment : Nat) : Except Error Nat :=
  if !isPowerOfTwo alignment then .error .invalidAlignment
  else .ok (address &&& (2 ^ 64 - 1 - (alignment - 1)))

def alignUp (address alignment : Nat) : Except Error Nat :=
  if alignment = 0 then .error .invalidAlignment
  else
    match checkedAdd address (alignment - 1) with
    | some intermediary => alignDown intermediary alignment
    | none => .error .overflow

/-! ## Nodes -/

/-- What a node of the tree holds. -/
structure Slot where
  key : RangeInclusive
  state : NodeState
deriving DecidableEq

/-- An optional `InnerNode`. -/
abbrev InnerNode : Type := Avl Slot

namespace InnerNode

def search : InnerNode → RangeInclusive → Option Slot
  | .nil, _ => none
  | .node slot l r _, key =>
      match slot.key.cmp key with
      | .eq => some slot
      | .lt => search r key
      | .gt => search l key

def searchSuperset : InnerNode → RangeInclusive → Option Slot
  | .nil, _ => none
  | .node slot l r _, key =>
      if slot.key.contains key then some slot
      else if key.last < slot.key.start then searchSuperset l key
      else searchSuperset r key

/-- A rotation that finds no node to bring up is a panic. -/
def orPanic (o : Option InnerNode) : Except Failure InnerNode :=
  match o with
  | some t => .ok t
  | none => .error .panic

def insert : InnerNode → RangeInclusive → NodeState → Except Failure InnerNode
  | .nil, key, state => .ok (.node ⟨key, state⟩ .nil .nil 1)
  | .node slot l r h, key, state =>
      if 50 < h + 1 then .error (.error .overflow)
      else if slot.key.overlaps key then .error (.error (.overlap key slot.key))
      else
        match slot.key.cmp key with
        | .eq => .error .panic
        | .lt => do
            let r ← insert r key state
            orPanic (Avl.repair slot l r)
        | .gt => do
            let l ← insert l key state
            orPanic (Avl.repair slot l r)

def markAsAllocated : InnerNode → RangeInclusive → Except Error InnerNode
  | .nil, _ => .error .resourceNotAvailable
  | .node slot l r h, key =>
      match slot.key.cmp key with
      | .eq =>
          if slot.state ≠ .free then .error (.invalidStateTransition slot.key slot.state)
          else .ok (.node { slot with state := .allocated } l r h)
      | .lt => (markAsAllocated r key).map fun r => .node slot l r h
      | .gt => (markAsAllocated l key).map fun l => .node slot l r h

/-- `none` for a panic. A key that is not there changes nothing. -/
def delete : InnerNode → RangeInclusive → Option InnerNode
  | .nil, _ => some .nil
  | .node slot l r h, key =>
      match slot.key.cmp key with
      | .eq => Avl.deleteRoot l r
      | .lt =>
          match r with
          | .nil => some (.node slot l r h)
          | .node _ _ _ _ => do
              let r ← delete r key
              Avl.repair slot l r
      | .gt =>
          match l with
          | .nil => some (.node slot l r h)
          | .node _ _ _ _ => do
              let l ← delete l key
              Avl.repair slot l r

end InnerNode

/-- The last aligned address at which the request ends within the range. -/
def RangeInclusive.lastAddress (key : RangeInclusive) (c : Constraint) : Except Error Nat :=
  match checkedSub key.last c.size with
  | none => .error .underflow
  | some address =>
      match checkedAdd address 1 with
      | none => .error .overflow
      | some candidate => do
          let aligned ← alignDown candidate c.align
          if aligned < key.start then .error .unalignedAddress else .ok aligned

/-- `range_start` of `check_constraint` -/
def Slot.rangeStart (slot : Slot) (c : Constraint) : Except Failure Nat :=
  match c.policy with
  | .firstMatch => (alignUp slot.key.start c.align).mapError .error
  | .lastMatch => (slot.key.lastAddress c).mapError .error
  | .exactMatch _ => .error .panic

/-- The part of a slot from the aligned start on, if the request fits there. -/
def Slot.checkConstraint (slot : Slot) (c : Constraint) : Except Failure RangeInclusive :=
  if slot.state ≠ .free ∨ slot.key.len < c.size then .error (.error .resourceNotAvailable)
  else do
    let start ← slot.rangeStart c
    let key ← (RangeInclusive.new start slot.key.last).mapError .error
    if c.size ≤ key.len then .ok key else .error (.error .resourceNotAvailable)

namespace InnerNode

/-- `none` for `ResourceNotAvailable`, the only error: every error of `check_constraint` is dropped. -/
def firstMatch : InnerNode → Constraint → Option (Slot × RangeInclusive)
  | .nil, _ => none
  | .node slot l r _, c =>
      (firstMatch l c).or (((slot.checkConstraint c).toOption.map fun range => (slot, range)).or (firstMatch r c))

def lastMatch : InnerNode → Constraint → Option (Slot × RangeInclusive)
  | .nil, _ => none
  | .node slot l r _, c =>
      (lastMatch r c).or (((slot.checkConstraint c).toOption.map fun range => (slot, range)).or (lastMatch l c))

/-- The node that holds the address need not be free. -/
def exactMatch (t : InnerNode) (c : Constraint) (start : Nat) : Except Error (Slot × RangeInclusive) := do
  let next ← (checkedAdd start 1).elim (.error .overflow) .ok
  let slot ← (t.searchSuperset (← RangeInclusive.new start next)).elim (.error .resourceNotAvailable) .ok
  let less ← (checkedSub c.size 1).elim (.error .underflow) .ok
  let last ← (checkedAdd start less).elim (.error .overflow) .ok
  let range ← RangeInclusive.new start last
  if slot.key.contains range then .ok (slot, range) else .error .resourceNotAvailable

def findCandidate (t : InnerNode) (c : Constraint) : Except Error (Slot × RangeInclusive) :=
  match c.policy with
  | .firstMatch => (t.firstMatch c).elim (.error .resourceNotAvailable) .ok
  | .lastMatch => (t.lastMatch c).elim (.error .resourceNotAvailable) .ok
  | .exactMatch start => t.exactMatch c start

end InnerNode

/-! ## The tree -/

/-- What an operation on the tree answers, and the tree that it leaves. -/
abbrev TreeM (β : Type) : Type := ExceptT Failure (StateM InnerNode) β

namespace IntervalTree

/-- An error where there is no value. -/
def orError {β : Type} (o : Option β) (e : Error) : TreeM β :=
  match o with
  | some x => pure x
  | none => throw (.error e)

def ofResult {β : Type} (x : Except Error β) : TreeM β :=
  match x with
  | .ok x => pure x
  | .error e => throw (.error e)

/-- The root is taken out first: when the insertion fails the tree is gone. -/
def insert (key : RangeInclusive) (state : NodeState) : TreeM Unit := do
  let root ← get
  set (Avl.nil : InnerNode)
  match root.insert key state with
  | .ok root => set root
  | .error e => throw e

def markAsAllocated (key : RangeInclusive) : TreeM Unit := do
  let root ← get
  match root with
  | .nil => pure ()
  | .node _ _ _ _ =>
      let root ← ofResult (root.markAsAllocated key)
      set root

def delete (key : RangeInclusive) : TreeM Unit := do
  let root ← get
  match root with
  | .nil => pure ()
  | .node _ _ _ _ =>
      if (root.search key).isNone then throw (.error .resourceNotAvailable)
      match root.delete key with
      | some root => set root
      | none => throw .panic

/-- What is left of a slot before the allocated range. -/
def insertBefore (key result : RangeInclusive) : TreeM Unit :=
  if key.start < result.start then do
    let before ← orError (checkedSub result.start 1) .overflow
    let range ← ofResult (RangeInclusive.new key.start before)
    insert range .free
  else pure ()

/-- What is left of a slot after the allocated range. -/
def insertAfter (key result : RangeInclusive) : TreeM Unit :=
  if result.last < key.last then do
    let after ← orError (checkedAdd result.last 1) .overflow
    let range ← ofResult (RangeInclusive.new after key.last)
    insert range .free
  else pure ()

/-- The slot gives way to the allocated range and what is left on both sides. -/
def split (key result : RangeInclusive) : TreeM RangeInclusive := do
  delete key
  insertBefore key result
  insert result .allocated
  insertAfter key result
  pure result

def allocate (c : Constraint) : TreeM RangeInclusive := do
  let root ← get
  match root with
  | .nil => throw (.error .resourceNotAvailable)
  | .node _ _ _ _ =>
      let (slot, range) ← ofResult (root.findCandidate c)
      let stop ← orError (checkedAdd range.start c.size) .overflow
      let last ← orError (checkedSub stop 1) .underflow
      let result ← ofResult (RangeInclusive.new range.start last)
      if slot.key.start = result.start ∧ slot.key.len = c.size then do
        markAsAllocated slot.key
        pure slot.key
      else split slot.key result

/-- The range with the free slot before it. The slot is found by two addresses, so it has at least two. -/
def mergeLeft (range : RangeInclusive) : TreeM RangeInclusive :=
  if 0 < range.start then do
    let low ← orError (checkedSub range.start 2) .underflow
    let high ← orError (checkedSub range.start 1) .underflow
    let near ← ofResult (RangeInclusive.new low high)
    let root ← get
    match root.searchSuperset near with
    | some slot => if slot.state = .free then ofResult (RangeInclusive.new slot.key.start range.last) else pure range
    | none => pure range
  else pure range

/-- The range with the free slot after it. -/
def mergeRight (range : RangeInclusive) : TreeM RangeInclusive :=
  if range.last < 2 ^ 64 - 1 then do
    let low ← orError (checkedAdd range.last 1) .overflow
    let high ← orError (checkedAdd range.last 2) .overflow
    let near ← ofResult (RangeInclusive.new low high)
    let root ← get
    match root.searchSuperset near with
    | some slot => if slot.state = .free then ofResult (RangeInclusive.new range.start slot.key.last) else pure range
    | none => pure range
  else pure range

/-- The slot that was merged from the left goes. -/
def deleteBefore (key range : RangeInclusive) : TreeM Unit :=
  if range.start < key.start then do
    let before ← orError (checkedSub key.start 1) .underflow
    let merged ← ofResult (RangeInclusive.new range.start before)
    delete merged
  else pure ()

/-- The slot that was merged from the right goes. -/
def deleteAfter (key range : RangeInclusive) : TreeM Unit :=
  if key.last < range.last then do
    let after ← orError (checkedAdd key.last 1) .overflow
    let merged ← ofResult (RangeInclusive.new after range.last)
    delete merged
  else pure ()

def free (key : RangeInclusive) : TreeM Unit := do
  delete key
  let range ← mergeLeft key
  let range ← mergeRight range
  deleteBefore key range
  deleteAfter key range
  insert range .free

end IntervalTree

/-! ## The allocator -/

structure AddressAllocator where
  addressSpace : RangeInclusive
  tree : InnerNode

namespace AddressAllocator

def new (base size : Nat) : Except Error AddressAllocator := do
  let less ← (checkedSub size 1).elim (.error .underflow) .ok
  let last ← (checkedAdd base less).elim (.error .overflow) .ok
  let range ← RangeInclusive.new base last
  .ok ⟨range, .node ⟨range, .free⟩ .nil .nil 1⟩

def allocate (a : AddressAllocator) (size alignment : Nat) (policy : AllocPolicy) :
    Except Failure RangeInclusive × AddressAllocator :=
  match Constraint.new size alignment policy with
  | .error e => (.error (.error e), a)
  | .ok c =>
      let (result, tree) := (IntervalTree.allocate c).run.run a.tree
      (result, { a with tree })

def free (a : AddressAllocator) (key : RangeInclusive) : Except Failure Unit × AddressAllocator :=
  let (result, tree) := (IntervalTree.free key).run.run a.tree
  (result, { a with tree })

end AddressAllocator

end Rknpu.Pcie
