import Rknpu.Device.Gem

/-!
# User address spaces

A translation of `AddrSpace` of `axmm`, as far as it says which pages are mapped, and of `sys_mmap` and `sys_munmap`.
The areas are kept by a crate that is not part of the repository; here they are given page by page, and mapping over a
page that is taken is refused. Where the search for a free area ends up is an argument. Filling pages in advance and
protection bits are left out, and the flag word comes decoded.
-/

namespace Rknpu.Starry

inductive AxError where
  | invalidInput
  | noMemory
  | alreadyExists
  | badAddress
  | noSuchDevice
deriving DecidableEq, Repr

/-! ## Address spaces -/

def pageSize4K : Nat := 4096

/-- The page lies in the range. -/
def InPages (start size page : Nat) : Prop := start / pageSize4K ≤ page ∧ page < (start + size) / pageSize4K

instance (start size page : Nat) : Decidable (InPages start size page) := inferInstanceAs (Decidable (_ ∧ _))

/-- What every user page is mapped to. -/
structure AddrSpace (β : Type) where
  base : Nat
  size : Nat
  pages : Nat → Option β

namespace AddrSpace

variable {β : Type}

def containsRange (a : AddrSpace β) (start size : Nat) : Bool :=
  a.base ≤ start && start < a.base + a.size && size ≤ a.base + a.size - start

def validateRegion (a : AddrSpace β) (start size : Nat) : Except AxError Unit :=
  if a.containsRange start size = false then .error .noMemory
  else if start % pageSize4K ≠ 0 ∨ size % pageSize4K ≠ 0 then .error .invalidInput
  else .ok ()

/-- No page of the range is mapped. -/
def isFree (a : AddrSpace β) (start size : Nat) : Bool :=
  (List.range (size / pageSize4K)).all fun i => (a.pages (start / pageSize4K + i)).isNone

/-- Give the pages of the range new contents. -/
def setPages (a : AddrSpace β) (start size : Nat) (contents : Nat → Option β) : AddrSpace β :=
  { a with pages := fun page => if InPages start size page then contents page else a.pages page }

/-- `backing` gives what the pages show, counted from the start of the range. -/
def map (a : AddrSpace β) (start size : Nat) (backing : Nat → β) : Except AxError (AddrSpace β) := do
  a.validateRegion start size
  if size = 0 then .error .invalidInput
  else if a.isFree start size = false then .error .alreadyExists
  else .ok (a.setPages start size fun page => some (backing (page - start / pageSize4K)))

def unmap (a : AddrSpace β) (start size : Nat) : Except AxError (AddrSpace β) := do
  a.validateRegion start size
  .ok (a.setPages start size fun _ => none)

def clear (a : AddrSpace β) : AddrSpace β := { a with pages := fun _ => none }

end AddrSpace

/-! ## `mmap` and `munmap` -/

inductive PageSize where
  | size4K
  | size2M
  | size1G
deriving DecidableEq, Repr

def PageSize.bytes : PageSize → UInt64
  | .size4K => 0x1000
  | .size2M => 0x200000
  | .size1G => 0x40000000

def PageSize.alignDown (pageSize : PageSize) (x : UInt64) : UInt64 := x &&& ~~~(pageSize.bytes - 1)

/-- The addition wraps. -/
def PageSize.alignUp (pageSize : PageSize) (x : UInt64) : UInt64 := pageSize.alignDown (x + (pageSize.bytes - 1))

inductive MapType where
  | priv
  | shared
  | sharedValidate
  | unknown
deriving DecidableEq, Repr

structure MmapArgs where
  addr : UInt64
  length : UInt64
  mapType : MapType
  fixed : Bool
  fixedNoreplace : Bool
  anonymous : Bool
  pageSize : PageSize
  fd : Int32
  offset : Int64

namespace MmapArgs

def check (args : MmapArgs) : Except AxError Unit :=
  if args.length = 0 then .error .invalidInput
  else if args.mapType = .unknown then .error .invalidInput
  else if args.anonymous ≠ (args.fd ≤ 0 : Bool) then .error .invalidInput
  else if args.fd ≤ 0 ∧ args.offset ≠ 0 then .error .invalidInput
  else if args.offset < 0 then .error .invalidInput
  else if args.offset.toUInt64 &&& 0xfff ≠ 0 then .error .invalidInput
  else .ok ()

def start (args : MmapArgs) : UInt64 := args.pageSize.alignDown args.addr

/-- The length that is reserved; all operations wrap. -/
def reserved (args : MmapArgs) : UInt64 := args.pageSize.alignUp (args.addr + args.length) - args.start

/-- The mapping replaces what is there. -/
def replaces (args : MmapArgs) : Bool := args.fixed && !args.fixedNoreplace

end MmapArgs

section

variable {β : Type}

/-- Where the mapping goes: the given place, emptied before unless the call must not replace, or a free one. -/
def mmapStart (a : AddrSpace β) (args : MmapArgs) (freeArea : Option UInt64) : Except AxError (UInt64 × AddrSpace β) :=
  if args.fixed || args.fixedNoreplace then
    if args.fixedNoreplace then .ok (args.start, a)
    else (a.unmap args.start.toNat args.reserved.toNat).map fun a => (args.start, a)
  else
    match freeArea with
    | none => .error .noMemory
    | some start => .ok (start, a)

/-- `backend` is what the file gives for this start and length, or the error of looking it up. An error after the place
was emptied leaves it empty. -/
def sysMmap (a : AddrSpace β) (args : MmapArgs) (freeArea : Option UInt64)
    (backend : UInt64 → UInt64 → Except AxError (UInt64 × (Nat → β))) : Except AxError UInt64 × AddrSpace β :=
  match args.check with
  | .error err => (.error err, a)
  | .ok () =>
      match mmapStart a args freeArea with
      | .error err => (.error err, a)
      | .ok (start, a) =>
          match backend start args.reserved with
          | .error err => (.error err, a)
          | .ok (length, backing) =>
              match a.map start.toNat length.toNat backing with
              | .error err => (.error err, a)
              | .ok a => (.ok start, a)

def sysMunmap (a : AddrSpace β) (addr length : UInt64) : Except AxError Unit × AddrSpace β :=
  match a.unmap addr.toNat (PageSize.size4K.alignUp length).toNat with
  | .error err => (.error err, a)
  | .ok a => (.ok (), a)

end

/-! ## What the operations leave -/

namespace AddrSpace

variable {β : Type} {a a' : AddrSpace β} {start size : Nat}

theorem isFree_iff : a.isFree start size = true ↔ ∀ i < size / pageSize4K, a.pages (start / pageSize4K + i) = none := by
  simp [isFree]

/-- A region that is accepted is a whole number of pages. -/
theorem inPages_iff (h : a.validateRegion start size = .ok ()) {page : Nat} :
    InPages start size page ↔ ∃ i < size / pageSize4K, page = start / pageSize4K + i := by
  unfold validateRegion at h
  split at h
  · cases h
  · split at h
    · cases h
    · rename_i haligned
      simp only [InPages, pageSize4K] at haligned ⊢
      constructor
      · intro hpage
        exact ⟨page - start / 4096, by omega, by omega⟩
      · rintro ⟨i, hi, rfl⟩
        omega

theorem map_cases {backing : Nat → β} (h : a.map start size backing = .ok a') :
    a.validateRegion start size = .ok () ∧ size ≠ 0 ∧ (∀ page, InPages start size page → a.pages page = none) ∧
      a' = a.setPages start size fun page => some (backing (page - start / pageSize4K)) := by
  unfold map at h
  cases hvalid : a.validateRegion start size with
  | error err =>
      rw [hvalid] at h
      cases h
  | ok =>
      rw [hvalid] at h
      change (if size = 0 then _ else if a.isFree start size = false then _ else _) = _ at h
      split at h
      · cases h
      · rename_i hsize
        split at h
        · cases h
        · rename_i hfree
          cases h
          rw [Bool.not_eq_false, isFree_iff] at hfree
          refine ⟨rfl, hsize, fun page hpage => ?_, rfl⟩
          obtain ⟨i, hi, rfl⟩ := (inPages_iff hvalid).mp hpage
          exact hfree i hi

theorem unmap_cases (h : a.unmap start size = .ok a') :
    a.validateRegion start size = .ok () ∧ a' = a.setPages start size fun _ => none := by
  unfold unmap at h
  cases hvalid : a.validateRegion start size with
  | error err =>
      rw [hvalid] at h
      cases h
  | ok =>
      rw [hvalid] at h
      cases h
      exact ⟨rfl, rfl⟩

theorem unmap_of_valid (h : a.validateRegion start size = .ok ()) :
    a.unmap start size = .ok (a.setPages start size fun _ => none) := by
  rw [unmap, h]
  rfl

theorem pages_setPages (a : AddrSpace β) (start size : Nat) (contents : Nat → Option β) (page : Nat) :
    (a.setPages start size contents).pages page =
      if InPages start size page then contents page else a.pages page := rfl

/-- The checks of a region depend on the bounds of the space only. -/
theorem validateRegion_congr (hbase : a'.base = a.base) (hsize : a'.size = a.size) (start size : Nat) :
    a'.validateRegion start size = a.validateRegion start size := by
  have hcontains : a'.containsRange start size = a.containsRange start size := by
    rw [containsRange, containsRange, hbase, hsize]
  rw [validateRegion, validateRegion, hcontains]

theorem pos_of_valid (h : a.validateRegion start size = .ok ()) (hbase : 0 < a.base) : 0 < start := by
  unfold validateRegion at h
  split at h
  · cases h
  · rename_i hcontains
    simp only [containsRange, Bool.not_eq_false, Bool.and_eq_true, decide_eq_true_eq] at hcontains
    omega

theorem pages_pos_of_valid (h : a.validateRegion start size = .ok ()) (hsize : size ≠ 0) : 0 < size / pageSize4K := by
  unfold validateRegion at h
  split at h
  · cases h
  · split at h
    · cases h
    · simp only [pageSize4K] at *
      omega

/-- Taking a mapping back leaves the space as it was. -/
theorem unmap_map {backing : Nat → β} (h : a.map start size backing = .ok a') : a'.unmap start size = .ok a := by
  obtain ⟨hvalid, -, hfree, rfl⟩ := map_cases h
  rw [unmap_of_valid (validateRegion_congr (a := a) rfl rfl start size ▸ hvalid)]
  congr 1
  have hpages : (fun page => if InPages start size page then none else
      if InPages start size page then some (backing (page - start / pageSize4K)) else a.pages page) = a.pages := by
    funext page
    split
    · rename_i hpage
      exact (hfree page hpage).symm
    · rfl
  exact congrArg (fun pages => { a with pages }) hpages

end AddrSpace

section

variable {β : Type} {a : AddrSpace β} {args : MmapArgs} {freeArea : Option UInt64}

/-- The call gets as far as emptying its place. -/
def MmapArgs.Empties (args : MmapArgs) (a : AddrSpace β) : Prop :=
  args.check = .ok () ∧ args.replaces = true ∧ a.validateRegion args.start.toNat args.reserved.toNat = .ok ()

instance (args : MmapArgs) (a : AddrSpace β) : Decidable (args.Empties a) := inferInstanceAs (Decidable (_ ∧ _))

/-- The address space after that. -/
def emptied (a : AddrSpace β) (args : MmapArgs) : AddrSpace β :=
  if args.Empties a then a.setPages args.start.toNat args.reserved.toNat fun _ => none else a

theorem mmapStart_emptied {start : UInt64} {a' : AddrSpace β} (hcheck : args.check = .ok ())
    (h : mmapStart a args freeArea = .ok (start, a')) : a' = emptied a args := by
  unfold mmapStart at h
  unfold emptied
  split at h
  · rename_i hfixed
    split at h
    · rename_i hnoreplace
      cases h
      rw [if_neg]
      rintro ⟨_, hreplaces, _⟩
      simp [MmapArgs.replaces, hnoreplace] at hreplaces
    · rename_i hnoreplace
      cases hunmap : a.unmap args.start.toNat args.reserved.toNat with
      | error err =>
          rw [hunmap] at h
          cases h
      | ok a₁ =>
          rw [hunmap] at h
          cases h
          obtain ⟨hvalid, rfl⟩ := AddrSpace.unmap_cases hunmap
          rw [if_pos]
          refine ⟨hcheck, ?_, hvalid⟩
          simpa [MmapArgs.replaces, hnoreplace] using hfixed
  · rename_i hfixed
    rw [if_neg]
    · split at h
      · cases h
      · cases h
        rfl
    · rintro ⟨_, hreplaces, _⟩
      simp only [MmapArgs.replaces, Bool.and_eq_true] at hreplaces
      simp [hreplaces.1] at hfixed

theorem emptied_of_mmapStart_error {err : AxError} (h : mmapStart a args freeArea = .error err) :
    emptied a args = a := by
  unfold emptied
  rw [if_neg]
  rintro ⟨_, hreplaces, hvalid⟩
  simp only [MmapArgs.replaces, Bool.and_eq_true, Bool.not_eq_true'] at hreplaces
  simp [mmapStart, hreplaces.1, hreplaces.2, AddrSpace.unmap_of_valid hvalid, Except.map] at h

/-- A call of `mmap` empties its place or not, and then maps what the file gives or nothing. -/
theorem sysMmap_cases (a : AddrSpace β) (args : MmapArgs) (freeArea : Option UInt64)
    (backend : UInt64 → UInt64 → Except AxError (UInt64 × (Nat → β))) :
    (sysMmap a args freeArea backend).2 = emptied a args ∨
    ∃ start length backing, backend start args.reserved = .ok (length, backing) ∧
      (emptied a args).map start.toNat length.toNat backing = .ok (sysMmap a args freeArea backend).2 := by
  unfold sysMmap
  split
  · rename_i err hcheck
    left
    rw [emptied, if_neg]
    rintro ⟨hok, _⟩
    rw [hcheck] at hok
    cases hok
  · rename_i hcheck
    split
    · rename_i hstart
      exact .inl (emptied_of_mmapStart_error hstart).symm
    · rename_i start a' hstart
      rw [mmapStart_emptied hcheck hstart]
      split
      · exact .inl rfl
      · rename_i length backing hbackend
        split
        · exact .inl rfl
        · rename_i hmap
          exact .inr ⟨start, length, backing, hbackend, hmap⟩

/-- `munmap` empties its range, or refuses. -/
theorem sysMunmap_cases (a : AddrSpace β) (addr length : UInt64) :
    (sysMunmap a addr length).2 =
      if a.validateRegion addr.toNat (PageSize.size4K.alignUp length).toNat = .ok () then
        a.setPages addr.toNat (PageSize.size4K.alignUp length).toNat fun _ => none
      else a := by
  unfold sysMunmap
  split
  · rename_i err herr
    rw [if_neg]
    intro hvalid
    rw [AddrSpace.unmap_of_valid hvalid] at herr
    cases herr
  · rename_i a' hok
    obtain ⟨hvalid, rfl⟩ := AddrSpace.unmap_cases hok
    rw [if_pos hvalid]

theorem emptied_pages {page : Nat} {b : β} (h : (emptied a args).pages page = some b) : a.pages page = some b := by
  unfold emptied at h
  split at h
  · rw [AddrSpace.pages_setPages] at h
    split at h
    · cases h
    · exact h
  · exact h

theorem pages_sysMunmap {addr length : UInt64} {page : Nat} {b : β}
    (h : (sysMunmap a addr length).2.pages page = some b) : a.pages page = some b := by
  rw [sysMunmap_cases] at h
  split at h
  · rw [AddrSpace.pages_setPages] at h
    split at h
    · cases h
    · exact h
  · exact h

end

end Rknpu.Starry
