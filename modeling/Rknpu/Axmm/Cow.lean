import Rknpu.Lib.Machine
import Rknpu.Lib.Sharing

/-!
# Copy-on-write memory

A translation of `axmm/src/backend/cow.rs` and of what `AddrSpace` does with it: page faults, `populate_area`, `mmap`,
`munmap`, `mprotect` and the copy made by `fork`. All areas have pages of one size and the copy-on-write backend. An
action is work on one page. An address space is locked during it, but `FRAME_TABLE` is locked for each count alone, and
the kernel is preemptible: a fault that has to copy gives up its reference in one action and copies in a later one, with
other address spaces at work in between. Which frame the allocator hands out, and what a file holds when it is read, are
arguments of the actions. Page tables have room, and changes to them are seen at once.
-/

namespace Rknpu.Axmm

structure MappingFlags where
  read : Bool
  write : Bool
  execute : Bool
  user : Bool
deriving DecidableEq, Repr

namespace MappingFlags

def contains (flags access : MappingFlags) : Bool :=
  (flags.read || !access.read) && (flags.write || !access.write) && (flags.execute || !access.execute) &&
    (flags.user || !access.user)

/-- `flags - MappingFlags::WRITE` -/
def withoutWrite (flags : MappingFlags) : MappingFlags := { flags with write := false }

end MappingFlags

/-! ## Frames -/

/-- Physical memory, the frames that the allocator has handed out, and `FRAME_TABLE`. -/
structure Memory (φ π : Type) where
  frames : φ → π
  allocated : φ → Bool
  refs : φ → Option UInt8

namespace Memory

variable {φ π : Type} [DecidableEq φ]

/-- The count wraps. -/
def incFrameRef (m : Memory φ π) (f : φ) : Memory φ π :=
  { m with refs := Function.update m.refs f (some ((m.refs f).getD 0 + 1)) }

/-- The count before is returned as well. -/
def decFrameRef (m : Memory φ π) (f : φ) : Memory φ π × Nat :=
  match m.refs f with
  | some prev => ({ m with refs := Function.update m.refs f (if prev = 1 then none else some (prev - 1)) }, prev.toNat)
  | none => (m, 0)

/-- `none` for a frame that is in use: the allocator does not hand it out. -/
def allocFrame (m : Memory φ π) (f : φ) (content : π) : Option (Memory φ π) :=
  if m.allocated f then none
  else some { m with frames := Function.update m.frames f content, allocated := Function.update m.allocated f true }

def deallocFrame (m : Memory φ π) (f : φ) : Memory φ π := { m with allocated := Function.update m.allocated f false }

def write (m : Memory φ π) (f : φ) (content : π) : Memory φ π :=
  { m with frames := Function.update m.frames f content }

end Memory

/-! ## Areas -/

/-- A page of the given size. -/
abbrev Page (size : Nat) : Type := Fin size → UInt8

/-- A file as it is read: no byte past its end. -/
abbrev FileBytes : Type := Nat → Option UInt8

structure CowBackend where
  start : Nat
  /-- Where the mapping begins in the file, and where it ends. -/
  file : Option (Nat × Option Nat)
deriving DecidableEq, Repr

structure Area where
  flags : MappingFlags
  backend : CowBackend
deriving DecidableEq, Repr

namespace CowBackend

variable {size : Nat}

/-- What `alloc_new_at` reads into a new page at `vaddr`. Before the start of the mapping and past the end of the file the
page stays zero. -/
def fill (fileStart : Nat) (fileEnd : Option Nat) (start vaddr : Nat) (bytes : FileBytes) : Page size := fun offset =>
  let gap := start - vaddr
  let first := fileStart + (vaddr - start)
  let maxRead := min (fileEnd.elim (size - gap) (· - first)) (size - gap)
  if gap ≤ offset ∧ offset < gap + maxRead then (bytes (first + (offset - gap))).getD 0 else 0

/-- The content of a new page. `none` if the file cannot be read. -/
def content (backend : CowBackend) (vaddr : Nat) (bytes : Option FileBytes) : Option (Page size) :=
  match backend.file with
  | none => some fun _ => 0
  | some (fileStart, fileEnd) => bytes.map (fill fileStart fileEnd backend.start vaddr)

/-- The assertion of `alloc_new_at`. -/
def GapFits (backend : CowBackend) (size vaddr : Nat) : Prop := backend.file.isSome → backend.start - vaddr < size

instance decidableGapFits (backend : CowBackend) (vaddr : Nat) : Decidable (backend.GapFits size vaddr) :=
  inferInstanceAs (Decidable (_ → _))

end CowBackend

/-! ## Address spaces -/

structure Pte (φ : Type) where
  frame : φ
  flags : MappingFlags
deriving DecidableEq, Repr

/-- A copy-on-write fault that has given up its reference and has yet to copy the frame. -/
structure Copying (φ : Type) where
  page : Nat
  frame : φ
  flags : MappingFlags
deriving DecidableEq, Repr

/-- All address spaces. A key is a space and the number of a page. A space with a copy under way is locked. -/
structure Spaces (τ φ : Type) (size : Nat) where
  mem : Memory φ (Page size)
  areas : τ × Nat → Option Area
  pt : τ × Nat → Option (Pte φ)
  copies : τ → Option (Copying φ)

/-- The result of `populate` on one page: the number of pages, an error, or a copy yet to be made. -/
inductive Populated where
  | ok (pages : Nat)
  | err
  | copying
deriving DecidableEq, Repr

/-- `page_fault_is_resolved` -/
def pageFaultIsResolved (populatedPages : Nat) (mappedFlags : Option MappingFlags) (access : MappingFlags) : Bool :=
  if populatedPages ≠ 0 then true
  else
    match mappedFlags with
    | some flags => flags.contains access
    | none => false

namespace Spaces

variable {τ φ : Type} {size : Nat} [DecidableEq τ] [DecidableEq φ]

def setPte (s : Spaces τ φ size) (key : τ × Nat) (pte : Option (Pte φ)) : Spaces τ φ size :=
  { s with pt := Function.update s.pt key pte }

def setArea (s : Spaces τ φ size) (key : τ × Nat) (area : Option Area) : Spaces τ φ size :=
  { s with areas := Function.update s.areas key area }

def setCopying (s : Spaces τ φ size) (space : τ) (copying : Option (Copying φ)) : Spaces τ φ size :=
  { s with copies := Function.update s.copies space copying }

/-- A frame and a reference to it come first; if the file cannot be read they stay. -/
def allocNewAt (s : Spaces τ φ size) (key : τ × Nat) (area : Area) (frame : Option φ) (bytes : Option FileBytes) :
    Option (Spaces τ φ size × Populated) :=
  match frame with
  | none => some (s, .err)
  | some f => do
      let mem ← s.mem.allocFrame f fun _ => 0
      let mem := mem.incFrameRef f
      if area.backend.GapFits size (key.2 * size) then
        match area.backend.content (key.2 * size) bytes with
        | none => some ({ s with mem }, .err)
        | some content => some ({ s with mem := mem.write f content }.setPte key (some ⟨f, area.flags⟩), .ok 1)
      else none

/-- Up to the allocation of the new frame. `none` where the source has `unreachable!()`. -/
def handleCowFault (s : Spaces τ φ size) (key : τ × Nat) (pte : Pte φ) (flags : MappingFlags) :
    Option (Spaces τ φ size × Populated) :=
  let (mem, prev) := s.mem.decFrameRef pte.frame
  if prev = 0 then none
  else if prev = 1 then some ({ s with mem := mem.incFrameRef pte.frame }.setPte key (some { pte with flags }), .ok 1)
  else some ({ s with mem }.setCopying key.1 (some ⟨key.2, pte.frame, flags⟩), .copying)

/-- The rest of `handle_cow_fault`. The reference is not taken again if there is no frame. -/
def finishCowFault (s : Spaces τ φ size) (space : τ) (frame : Option φ) : Option (Spaces τ φ size × Populated) :=
  match s.copies space with
  | none => none
  | some copying =>
      match frame with
      | none => some (s.setCopying space none, .err)
      | some f => do
          let mem ← s.mem.allocFrame f (s.mem.frames copying.frame)
          some (({ s with mem := mem.incFrameRef f }.setPte (space, copying.page) (some ⟨f, copying.flags⟩)).setCopying
            space none, .ok 1)

/-- `CowBackend::populate` on one page -/
def populate (s : Spaces τ φ size) (key : τ × Nat) (area : Area) (access : MappingFlags) (frame : Option φ)
    (bytes : Option FileBytes) : Option (Spaces τ φ size × Populated) :=
  match s.pt key with
  | some pte =>
      if access.write && !pte.flags.write then s.handleCowFault key pte area.flags else some (s, .ok 0)
  | none => s.allocNewAt key area frame bytes

/-- One page of `populate_area`. The access is not compared with the flags of the area. -/
def populateArea (s : Spaces τ φ size) (key : τ × Nat) (access : MappingFlags) (frame : Option φ)
    (bytes : Option FileBytes) : Option (Spaces τ φ size) :=
  match s.areas key with
  | none => some s
  | some area => (s.populate key area access frame bytes).map Prod.fst

/-- With the answer: whether the fault is resolved, or `none` if a copy has to be made first. -/
def handlePageFault (s : Spaces τ φ size) (key : τ × Nat) (access : MappingFlags) (frame : Option φ)
    (bytes : Option FileBytes) : Option (Spaces τ φ size × Option Bool) :=
  match s.areas key with
  | none => some (s, some false)
  | some area =>
      if area.flags.contains access then do
        let (s, populated) ← s.populate key area access frame bytes
        match populated with
        | .ok n => some (s, some (pageFaultIsResolved n (if n = 0 then (s.pt key).map Pte.flags else none) access))
        | .err => some (s, some false)
        | .copying => some (s, none)
      else some (s, some false)

def munmap (s : Spaces τ φ size) (key : τ × Nat) : Spaces τ φ size :=
  let s := s.setArea key none
  match s.pt key with
  | none => s
  | some pte =>
      let (mem, prev) := s.mem.decFrameRef pte.frame
      { s with mem := if prev = 1 then mem.deallocFrame pte.frame else mem }.setPte key none

/-- The entry gets the new flags as they are. -/
def mprotect (s : Spaces τ φ size) (key : τ × Nat) (flags : MappingFlags) : Spaces τ φ size :=
  match s.areas key with
  | none => s
  | some area => (s.setArea key (some { area with flags })).setPte key ((s.pt key).map fun pte => { pte with flags })

/-- `CowBackend::clone_map` on one page, and the area of the copy. Both entries lose the right to write. -/
def cloneMap (s : Spaces τ φ size) (old new : τ × Nat) : Spaces τ φ size :=
  match s.areas old with
  | none => s
  | some area =>
      let s := s.setArea new (some area)
      match s.pt old with
      | none => s
      | some pte =>
          let shared : Pte φ := ⟨pte.frame, area.flags.withoutWrite⟩
          ({ s with mem := s.mem.incFrameRef pte.frame }.setPte old (some shared)).setPte new (some shared)

/-- `none` if the store faults. -/
def store (s : Spaces τ φ size) (key : τ × Nat) (offset : Fin size) (byte : UInt8) : Option (Spaces τ φ size) :=
  match s.pt key with
  | none => none
  | some pte =>
      if pte.flags.write then
        some { s with mem := s.mem.write pte.frame (Function.update (s.mem.frames pte.frame) offset byte) }
      else none

end Spaces

inductive SpaceAct (τ φ : Type) (size : Nat) where
  | mmap (key : τ × Nat) (area : Area)
  | fault (key : τ × Nat) (access : MappingFlags) (frame : Option φ) (bytes : Option FileBytes)
  | populate (key : τ × Nat) (access : MappingFlags) (frame : Option φ) (bytes : Option FileBytes)
  | finish (space : τ) (frame : Option φ)
  | munmap (key : τ × Nat)
  | mprotect (key : τ × Nat) (flags : MappingFlags)
  | clone (old new : τ) (page : Nat)
  /-- The CPU stores a byte, with no lock. -/
  | store (key : τ × Nat) (offset : Fin size) (byte : UInt8)

/-- The runs of all address spaces, from the state with none in use. -/
def spaces (τ φ : Type) (size : Nat) [DecidableEq τ] [DecidableEq φ] :
    Machine (Spaces τ φ size) (SpaceAct τ φ size) where
  init := ⟨⟨fun _ _ => 0, fun _ => false, fun _ => none⟩, fun _ => none, fun _ => none, fun _ => none⟩
  step s
    | .mmap key area =>
        if (s.copies key.1).isNone ∧ (s.areas key).isNone then some (s.setArea key (some area)) else none
    | .fault key access frame bytes =>
        if (s.copies key.1).isNone then (s.handlePageFault key access frame bytes).map Prod.fst else none
    | .populate key access frame bytes =>
        if (s.copies key.1).isNone then s.populateArea key access frame bytes else none
    | .finish space frame => (s.finishCowFault space frame).map Prod.fst
    | .munmap key => if (s.copies key.1).isNone then some (s.munmap key) else none
    | .mprotect key flags => if (s.copies key.1).isNone then some (s.mprotect key flags) else none
    | .clone old new page =>
        -- the new space is not in use at this page yet
        if (s.copies old).isNone ∧ (s.copies new).isNone ∧ (s.areas (new, page)).isNone ∧ (s.pt (new, page)).isNone ∧
            old ≠ new then
          some (s.cloneMap (old, page) (new, page))
        else none
    | .store key offset byte => s.store key offset byte

end Rknpu.Axmm
