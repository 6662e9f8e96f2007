import Rknpu.Axmm.Lemmas.Cow

/-!
# What the address spaces keep

A frame that one page may write is held by that page alone, and nobody is about to copy it. The counts are exact. All
this is kept by the actions that respect `Safe`; the source does not enforce it.
-/

namespace Rknpu.Axmm

namespace Spaces

variable {τ φ : Type} {size : Nat}

/-- The frame that a page holds a reference to. A page whose copy is under way has given its reference up. -/
def holder [DecidableEq τ] (s : Spaces τ φ size) (key : τ × Nat) : Option φ :=
  if (s.copies key.1).any fun c => c.page == key.2 then none else (s.pt key).map Pte.frame

/-- The memory after a reference is given up, where the count was `n`. The frame is freed with the last one. -/
def released [DecidableEq φ] (s : Spaces τ φ size) (f : φ) (n : UInt8) : Memory φ (Page size) where
  frames := s.mem.frames
  allocated := if n = 1 then Function.update s.mem.allocated f false else s.mem.allocated
  refs := Function.update s.mem.refs f (if n = 1 then none else some (n - 1))

/-- Nobody is about to copy the frame. -/
def Settled (s : Spaces τ φ size) (f : φ) : Prop := ∀ space c, s.copies space = some c → c.frame ≠ f

/-- The frame has one reference and nobody is about to copy it. -/
def Alone (s : Spaces τ φ size) (f : φ) : Prop := s.mem.refs f = some 1 ∧ s.Settled f

end Spaces

/-- The last reference to a frame is neither used for writing nor dropped while a copy of the frame is under way, a copy
finds a frame, `mprotect` lets nobody write a shared frame, and no frame is shared 256 times. -/
def Safe {τ φ : Type} {size : Nat} (s : Spaces τ φ size) : SpaceAct τ φ size → Prop
  | .fault key _ _ _ | .populate key _ _ _ | .munmap key =>
      ∀ pte, s.pt key = some pte → s.mem.refs pte.frame = some 1 → s.Settled pte.frame
  | .finish _ frame => frame.isSome
  | .mprotect key flags => flags.write → ∀ pte, s.pt key = some pte → s.Alone pte.frame
  | .clone old _ page => ∀ pte, s.pt (old, page) = some pte → s.mem.refs pte.frame ≠ some 255
  | .mmap _ _ | .store _ _ _ => True

instance decidableSettled {τ φ : Type} {size : Nat} [Fintype τ] [DecidableEq φ] (s : Spaces τ φ size) (f : φ) :
    Decidable (s.Settled f) :=
  decidable_of_iff (∀ space, ∀ c ∈ s.copies space, c.frame ≠ f) Iff.rfl

instance decidableAlone {τ φ : Type} {size : Nat} [Fintype τ] [DecidableEq φ] (s : Spaces τ φ size) (f : φ) :
    Decidable (s.Alone f) :=
  inferInstanceAs (Decidable (_ ∧ _))

instance decidableSafe {τ φ : Type} {size : Nat} [Fintype τ] [DecidableEq φ] (s : Spaces τ φ size)
    (a : SpaceAct τ φ size) : Decidable (Safe s a) :=
  match a with
  | .fault key _ _ _ | .populate key _ _ _ | .munmap key =>
      inferInstanceAs (Decidable (∀ pte ∈ s.pt key, s.mem.refs pte.frame = some 1 → s.Settled pte.frame))
  | .finish _ frame => inferInstanceAs (Decidable (frame.isSome = true))
  | .mprotect key flags => inferInstanceAs (Decidable (flags.write = true → ∀ pte ∈ s.pt key, s.Alone pte.frame))
  | .clone old _ page => inferInstanceAs (Decidable (∀ pte ∈ s.pt (old, page), s.mem.refs pte.frame ≠ some 255))
  | .mmap _ _ | .store _ _ _ => inferInstanceAs (Decidable True)

/-- What every run of safe actions keeps. -/
structure Inv {τ φ : Type} {size : Nat} [DecidableEq τ] (lost : Set φ) (s : Spaces τ φ size) : Prop where
  counts : Counts lost s.mem.refs s.holder
  allocated : ∀ f, s.mem.allocated f = (s.mem.refs f).isSome
  exclusive : ∀ key pte, s.pt key = some pte → pte.flags.write → s.Alone pte.frame
  granted : ∀ key pte, s.pt key = some pte →
    ∃ area, s.areas key = some area ∧ (pte.flags = area.flags ∨ pte.flags = area.flags.withoutWrite)
  copying : ∀ space c, s.copies space = some c → (s.mem.refs c.frame).isSome ∧ ∃ area flags,
    s.pt (space, c.page) = some ⟨c.frame, flags⟩ ∧ s.areas (space, c.page) = some area ∧ c.flags = area.flags

variable {τ φ : Type} {size : Nat} [DecidableEq τ] {s : Spaces τ φ size} {lost : Set φ} {key : τ × Nat} {pte : Pte φ}

namespace Spaces

theorem holder_of_unlocked (h : s.copies key.1 = none) : s.holder key = (s.pt key).map Pte.frame := by
  simp [holder, h]

theorem holder_setPte (h : s.copies key.1 = none) (o : Option (Pte φ)) :
    (s.setPte key o).holder = Function.update s.holder key (o.map Pte.frame) := by
  funext k
  by_cases hk : k = key
  · subst hk
    simp [holder, setPte, h]
  · simp [holder, setPte, hk]

theorem holder_setCopying (h : s.copies key.1 = none) (f : φ) (flags : MappingFlags) :
    (s.setCopying key.1 (some ⟨key.2, f, flags⟩)).holder = Function.update s.holder key none := by
  funext k
  by_cases hk : k = key
  · subst hk
    simp [holder, setCopying]
  · rw [Function.update_of_ne hk]
    by_cases hspace : k.1 = key.1
    · -- another page of the space that is being locked
      have hpage : key.2 ≠ k.2 := fun he => hk (Prod.ext hspace he.symm)
      simp [holder, setCopying, hspace, h, hpage]
    · simp [holder, setCopying, hspace]

theorem holder_finish {space : τ} {c : Copying φ} (h : s.copies space = some c) (p : Pte φ) :
    ((s.setPte (space, c.page) (some p)).setCopying space none).holder =
      Function.update s.holder (space, c.page) (some p.frame) := by
  funext k
  by_cases hk : k = (space, c.page)
  · subst hk
    simp [holder, setPte, setCopying]
  · rw [Function.update_of_ne hk]
    by_cases hspace : k.1 = space
    · have hpage : c.page ≠ k.2 := fun he => hk (Prod.ext hspace he.symm)
      simp [holder, setPte, setCopying, hspace, h, hpage, hk]
    · simp [holder, setPte, setCopying, hspace, hk]

end Spaces

namespace Inv

/-- A page holds its frame or is about to copy it. -/
theorem holder_or_copying (h : Inv lost s) (hpte : s.pt key = some pte) :
    s.holder key = some pte.frame ∨ ∃ c, s.copies key.1 = some c ∧ c.frame = pte.frame := by
  cases hc : s.copies key.1 with
  | none => exact .inl (by simp [Spaces.holder, hc, hpte])
  | some c =>
      by_cases hpage : c.page = key.2
      · obtain ⟨_, _, flags, hcopied, _, _⟩ := h.copying key.1 c hc
        rw [hpage, hpte] at hcopied
        exact .inr ⟨c, rfl, by rw [Option.some.inj hcopied]⟩
      · exact .inl (by simp [Spaces.holder, hc, hpage, hpte])

theorem holder_of_settled (h : Inv lost s) (hpte : s.pt key = some pte) (hsettled : s.Settled pte.frame) :
    s.holder key = some pte.frame := by
  rcases h.holder_or_copying hpte with hkey | ⟨c, hc, hframe⟩
  · exact hkey
  · exact absurd hframe (hsettled _ c hc)

theorem mapped (h : Inv lost s) (hpte : s.pt key = some pte) : (s.mem.refs pte.frame).isSome := by
  rcases h.holder_or_copying hpte with hkey | ⟨c, hc, hframe⟩
  · exact h.counts.isSome hkey
  · exact hframe ▸ (h.copying _ c hc).1

theorem refs_of_free (h : Inv lost s) {f : φ} (hfree : s.mem.allocated f = false) : s.mem.refs f = none := by
  have hsome := h.allocated f
  rw [hfree] at hsome
  simpa using hsome.symm

/-- A free frame is in no page table. -/
theorem frame_ne (h : Inv lost s) {f : φ} (hrefs : s.mem.refs f = none) (hpte : s.pt key = some pte) :
    pte.frame ≠ f := by
  rintro rfl
  simpa [hrefs] using h.mapped hpte

theorem settled_of_free (h : Inv lost s) {f : φ} (hrefs : s.mem.refs f = none) : s.Settled f := by
  rintro space c hc rfl
  simpa [hrefs] using (h.copying space c hc).1

/-- A page that is alone with its frame shares it with no other page. -/
theorem eq_of_alone (h : Inv lost s) {key' : τ × Nat} {pte' : Pte φ} (hpte : s.pt key = some pte)
    (hpte' : s.pt key' = some pte') (halone : s.Alone pte.frame) (hframe : pte'.frame = pte.frame) : key' = key :=
  h.counts.unique halone.1 (h.holder_of_settled hpte halone.2)
    (hframe ▸ h.holder_of_settled hpte' (hframe ▸ halone.2))

/-! ## Page faults -/

section Operations

variable [DecidableEq φ] {s' : Spaces τ φ size} {area : Area} {f : φ} {content : Page size}

/-- A frame that was free, with one reference. The page tables do not know it yet. -/
theorem alone_withFrame (h : Inv lost s) (hfree : s.mem.allocated f = false) :
    (s.withFrame f content).refs f = some 1 ∧ s.Settled f :=
  ⟨by simp [Spaces.withFrame, h.refs_of_free hfree], h.settled_of_free (h.refs_of_free hfree)⟩

omit [DecidableEq τ] in
theorem refs_withFrame {g : φ} (hne : g ≠ f) : (s.withFrame f content).refs g = s.mem.refs g :=
  Function.update_of_ne hne _ _

theorem allocated_withFrame (h : Inv lost s) (g : φ) :
    (s.withFrame f content).allocated g = ((s.withFrame f content).refs g).isSome := by
  by_cases hgf : g = f
  · subst hgf
    simp [Spaces.withFrame]
  · simpa [Spaces.withFrame, hgf] using h.allocated g

omit [DecidableEq τ] in
theorem isSome_withFrame {g : φ} (hsome : (s.mem.refs g).isSome) : ((s.withFrame f content).refs g).isSome := by
  by_cases hgf : g = f
  · subst hgf
    simp [Spaces.withFrame]
  · rwa [refs_withFrame hgf]

/-- The pages that are in use do not notice a new frame. -/
theorem exclusive_withFrame (h : Inv lost s) (hfree : s.mem.allocated f = false) (hpte : s.pt key = some pte)
    (hwrite : pte.flags.write) : (s.withFrame f content).refs pte.frame = some 1 ∧ s.Settled pte.frame := by
  rw [refs_withFrame (h.frame_ne (h.refs_of_free hfree) hpte)]
  exact h.exclusive key pte hpte hwrite

/-- The count of a frame that was free has room, and the frame is not lost. -/
theorem counts_withFrame (h : Inv lost s) (hfree : s.mem.allocated f = false) (hkey : s.holder key = none) :
    Counts lost (s.withFrame f content).refs (Function.update s.holder key (some f)) := by
  have hrefs := h.refs_of_free hfree
  refine h.counts.take hkey (fun hlost => ?_) (by simp [hrefs])
  simpa [hrefs] using (h.counts.lost f hlost).1

theorem mapNew (h : Inv lost s) (hunlocked : s.copies key.1 = none) (harea : s.areas key = some area)
    (hpte : s.pt key = none) (hfree : s.mem.allocated f = false) :
    Inv lost ({ s with mem := s.withFrame f content }.setPte key (some ⟨f, area.flags⟩)) := by
  have hkey : s.holder key = none := by simp [Spaces.holder_of_unlocked hunlocked, hpte]
  have hholder : ({ s with mem := s.withFrame f content }.setPte key (some ⟨f, area.flags⟩)).holder =
      Function.update s.holder key (some f) := Spaces.holder_setPte hunlocked _
  refine ⟨?_, h.allocated_withFrame, fun k p hp hwrite => ?_, fun k p hp => ?_, fun space c hc => ?_⟩
  · rw [hholder]
    exact h.counts_withFrame hfree hkey
  · by_cases hk : k = key
    · subst hk
      obtain rfl : p = ⟨f, area.flags⟩ := by simpa [Spaces.setPte] using hp.symm
      exact h.alone_withFrame hfree
    · exact h.exclusive_withFrame hfree (by simpa [Spaces.setPte, hk] using hp) hwrite
  · by_cases hk : k = key
    · subst hk
      obtain rfl : p = ⟨f, area.flags⟩ := by simpa [Spaces.setPte] using hp.symm
      exact ⟨area, harea, .inl rfl⟩
    · exact h.granted k p (by simpa [Spaces.setPte, hk] using hp)
  · obtain ⟨hsome, a, flags, hp, ha, hflags⟩ := h.copying space c hc
    have hk : (space, c.page) ≠ key := by
      rintro rfl
      simp [hpte] at hp
    exact ⟨isSome_withFrame hsome, a, flags, by simpa [Spaces.setPte, hk] using hp, ha, hflags⟩

/-- The file cannot be read: the frame is lost. -/
theorem unread (h : Inv lost s) (hfree : s.mem.allocated f = false) :
    Inv (insert f lost) { s with mem := s.withFrame f content } where
  counts := h.counts.lose (h.refs_of_free hfree)
  allocated := h.allocated_withFrame
  exclusive _ _ hp hwrite := h.exclusive_withFrame hfree hp hwrite
  granted := h.granted
  copying space c hc := ⟨isSome_withFrame (h.copying space c hc).1, (h.copying space c hc).2⟩

omit [DecidableEq φ] in
/-- The flags of a page and of its area change, not its frame. -/
theorem protect (h : Inv lost s) (hunlocked : s.copies key.1 = none) (hpte : s.pt key = some pte)
    {flags : MappingFlags} (hflags : flags = area.flags ∨ flags = area.flags.withoutWrite)
    (hwrite : flags.write → s.Alone pte.frame) :
    Inv lost ((s.setArea key (some area)).setPte key (some ⟨pte.frame, flags⟩)) := by
  have hkey : s.holder key = some pte.frame := by simp [Spaces.holder_of_unlocked hunlocked, hpte]
  have hholder : ((s.setArea key (some area)).setPte key (some ⟨pte.frame, flags⟩)).holder = s.holder := by
    rw [Spaces.holder_setPte (s := s.setArea key (some area)) hunlocked, Option.map_some, ← hkey]
    exact Function.update_eq_self key s.holder
  refine ⟨?_, h.allocated, fun k p hp hpwrite => ?_, fun k p hp => ?_, fun space c hc => ?_⟩
  · rw [hholder]
    exact h.counts
  · by_cases hk : k = key
    · subst hk
      obtain rfl : p = ⟨pte.frame, flags⟩ := by simpa [Spaces.setPte] using hp.symm
      exact hwrite hpwrite
    · exact h.exclusive k p (by simpa [Spaces.setPte, Spaces.setArea, hk] using hp) hpwrite
  · by_cases hk : k = key
    · subst hk
      obtain rfl : p = ⟨pte.frame, flags⟩ := by simpa [Spaces.setPte] using hp.symm
      exact ⟨area, by simp [Spaces.setPte, Spaces.setArea], hflags⟩
    · simpa [Spaces.setPte, Spaces.setArea, hk] using
        h.granted k p (by simpa [Spaces.setPte, Spaces.setArea, hk] using hp)
  · obtain ⟨hsome, a, flags', hp, ha, hcflags⟩ := h.copying space c hc
    have hk : (space, c.page) ≠ key := by
      rintro rfl
      exact Option.some_ne_none c (hc.symm.trans hunlocked)
    exact ⟨hsome, a, flags', by simpa [Spaces.setPte, Spaces.setArea, hk] using hp,
      by simpa [Spaces.setPte, Spaces.setArea, hk] using ha, hcflags⟩

omit [DecidableEq φ] in
theorem reflag (h : Inv lost s) (hunlocked : s.copies key.1 = none) (hpte : s.pt key = some pte)
    (harea : s.areas key = some area) {flags : MappingFlags}
    (hflags : flags = area.flags ∨ flags = area.flags.withoutWrite) (hwrite : flags.write → s.Alone pte.frame) :
    Inv lost (s.setPte key (some ⟨pte.frame, flags⟩)) := by
  have hsame : s.setArea key (some area) = s := by rw [Spaces.setArea, ← harea, Function.update_eq_self]
  have hprotect := h.protect hunlocked hpte hflags hwrite
  rwa [hsame] at hprotect

theorem give (h : Inv lost s) (hunlocked : s.copies key.1 = none) (hpte : s.pt key = some pte)
    (harea : s.areas key = some area) {n : UInt8} (hrefs : s.mem.refs pte.frame = some n) (hone : n ≠ 1) :
    Inv lost ({ s with mem := (s.mem.decFrameRef pte.frame).1 }.setCopying key.1
      (some ⟨key.2, pte.frame, area.flags⟩)) := by
  have hkey : s.holder key = some pte.frame := by simp [Spaces.holder_of_unlocked hunlocked, hpte]
  -- a frame with one reference is another one
  have hother : ∀ {g}, s.mem.refs g = some 1 → pte.frame ≠ g := by
    rintro g hg rfl
    exact hone (Option.some.inj (hrefs.symm.trans hg))
  have hsome : ∀ g, (s.mem.refs g).isSome →
      (Function.update s.mem.refs pte.frame (if n = 1 then none else some (n - 1)) g).isSome := by
    intro g hg
    by_cases hgf : g = pte.frame
    · subst hgf
      simp [hone]
    · rwa [Function.update_of_ne hgf]
  rw [Memory.decFrameRef_some hrefs]
  have hcounts := h.counts.give hkey hrefs
  rw [← Spaces.holder_setCopying hunlocked pte.frame area.flags] at hcounts
  refine ⟨hcounts, fun g => ?_, fun k p hp hwrite => ?_, h.granted, fun space c hc => ?_⟩
  · by_cases hgf : g = pte.frame
    · subst hgf
      simpa [Spaces.setCopying, hone, hrefs] using h.allocated pte.frame
    · simpa [Spaces.setCopying, hgf] using h.allocated g
  · obtain ⟨hp1, hsettled⟩ := h.exclusive k p hp hwrite
    refine ⟨by simpa [Spaces.setCopying, (hother hp1).symm] using hp1, fun space c hc => ?_⟩
    by_cases hspace : space = key.1
    · subst hspace
      obtain rfl : c = ⟨key.2, pte.frame, area.flags⟩ := by simpa [Spaces.setCopying] using hc.symm
      exact hother hp1
    · exact hsettled space c (by simpa [Spaces.setCopying, hspace] using hc)
  · by_cases hspace : space = key.1
    · subst hspace
      obtain rfl : c = ⟨key.2, pte.frame, area.flags⟩ := by simpa [Spaces.setCopying] using hc.symm
      exact ⟨hsome _ (by simp [hrefs]), area, pte.flags, hpte, harea, rfl⟩
    · obtain ⟨hc', hrest⟩ := h.copying space c (by simpa [Spaces.setCopying, hspace] using hc)
      exact ⟨hsome _ hc', hrest⟩

theorem finish (h : Inv lost s) {space : τ} {c : Copying φ} (hc : s.copies space = some c)
    (hfree : s.mem.allocated f = false) :
    Inv lost (({ s with mem := s.withFrame f content }.setPte (space, c.page) (some ⟨f, c.flags⟩)).setCopying
      space none) := by
  obtain ⟨_, area, _, _, harea, hflags⟩ := h.copying space c hc
  have hkey : s.holder (space, c.page) = none := by simp [Spaces.holder, hc]
  have hcounts : Counts lost (s.withFrame f content).refs (Function.update s.holder (space, c.page) (some f)) :=
    h.counts_withFrame hfree hkey
  rw [← Spaces.holder_finish hc ⟨f, c.flags⟩] at hcounts
  -- the copies that are left were there before
  have hcopies : ∀ {space' c'}, Function.update s.copies space none space' = some c' →
      space' ≠ space ∧ s.copies space' = some c' := by
    intro space' c' hc'
    by_cases hspace : space' = space
    · simp [hspace] at hc'
    · exact ⟨hspace, by simpa [hspace] using hc'⟩
  have hsettled : ∀ {g}, s.Settled g → ∀ space' c', Function.update s.copies space none space' = some c' →
      c'.frame ≠ g := fun hg space' c' hc' => hg space' c' (hcopies hc').2
  refine ⟨hcounts, h.allocated_withFrame, fun k p hp hwrite => ?_, fun k p hp => ?_, fun space' c' hc' => ?_⟩
  · by_cases hk : k = (space, c.page)
    · subst hk
      obtain rfl : p = ⟨f, c.flags⟩ := by simpa [Spaces.setPte, Spaces.setCopying] using hp.symm
      obtain ⟨hone, hs⟩ : (s.withFrame f content).refs f = some 1 ∧ s.Settled f := h.alone_withFrame hfree
      exact ⟨hone, hsettled hs⟩
    · have hp : s.pt k = some p := by simpa [Spaces.setPte, Spaces.setCopying, hk] using hp
      obtain ⟨hone, hs⟩ : (s.withFrame f content).refs p.frame = some 1 ∧ s.Settled p.frame :=
        h.exclusive_withFrame hfree hp hwrite
      exact ⟨hone, hsettled hs⟩
  · by_cases hk : k = (space, c.page)
    · subst hk
      obtain rfl : p = ⟨f, c.flags⟩ := by simpa [Spaces.setPte, Spaces.setCopying] using hp.symm
      exact ⟨area, harea, .inl hflags⟩
    · exact h.granted k p (by simpa [Spaces.setPte, Spaces.setCopying, hk] using hp)
  · obtain ⟨hspace, hc'⟩ := hcopies hc'
    obtain ⟨hsome, a, flags, hp, ha, hcflags⟩ := h.copying space' c' hc'
    have hk : (space', c'.page) ≠ (space, c.page) := fun he => hspace (Prod.mk.inj he).1
    exact ⟨isSome_withFrame hsome, a, flags, by simpa [Spaces.setPte, Spaces.setCopying, hk] using hp, ha, hcflags⟩

/-! ## The other actions -/

omit [DecidableEq φ] in
/-- The area of a page that has no entry changes. -/
theorem setArea (h : Inv lost s) (hpte : s.pt key = none) (o : Option Area) : Inv lost (s.setArea key o) where
  counts := h.counts
  allocated := h.allocated
  exclusive := h.exclusive
  granted k p hp := by
    have hk : k ≠ key := by
      rintro rfl
      exact Option.some_ne_none p (hp.symm.trans hpte)
    simpa [Spaces.setArea, hk] using h.granted k p hp
  copying space c hc := by
    obtain ⟨hsome, a, flags, hp, ha, hflags⟩ := h.copying space c hc
    have hk : (space, c.page) ≠ key := by
      rintro rfl
      exact Option.some_ne_none _ (hp.symm.trans hpte)
    exact ⟨hsome, a, flags, hp, by simpa [Spaces.setArea, hk] using ha, hflags⟩

omit [DecidableEq φ] in
theorem pt_eq_none (h : Inv lost s) (harea : s.areas key = none) : s.pt key = none := by
  cases hpte : s.pt key with
  | none => rfl
  | some p =>
      obtain ⟨a, ha, _⟩ := h.granted key p hpte
      exact absurd (harea.symm.trans ha) (by simp)

/-- The entry of a page goes, and its reference with it. -/
theorem dropPte (h : Inv lost s) (hunlocked : s.copies key.1 = none) (hpte : s.pt key = some pte) {n : UInt8}
    (hrefs : s.mem.refs pte.frame = some n) (hsafe : n = 1 → s.Settled pte.frame) {mem : Memory φ (Page size)}
    (hmem : mem.refs = Function.update s.mem.refs pte.frame (if n = 1 then none else some (n - 1)))
    (hallocated : ∀ g, mem.allocated g = (mem.refs g).isSome) : Inv lost ({ s with mem }.setPte key none) := by
  have hkey : s.holder key = some pte.frame := by simp [Spaces.holder_of_unlocked hunlocked, hpte]
  have hholder : ({ s with mem }.setPte key none).holder = Function.update s.holder key none :=
    Spaces.holder_setPte hunlocked none
  have hkeep : ∀ {g}, g ≠ pte.frame → mem.refs g = s.mem.refs g := by
    intro g hg
    rw [hmem, Function.update_of_ne hg]
  have hpages : ∀ {k p}, Function.update s.pt key none k = some p → k ≠ key ∧ s.pt k = some p := by
    intro k p hp
    by_cases hk : k = key
    · simp [hk] at hp
    · exact ⟨hk, by simpa [hk] using hp⟩
  refine ⟨?_, hallocated, fun k p hp hwrite => ?_, fun k p hp => h.granted k p (hpages hp).2, fun space c hc => ?_⟩
  · rw [hholder]
    exact hmem ▸ h.counts.give hkey hrefs
  · obtain ⟨hk, hp⟩ := hpages hp
    have halone := h.exclusive k p hp hwrite
    have hne : p.frame ≠ pte.frame := fun he => hk (h.eq_of_alone hp hpte halone he.symm).symm
    exact ⟨(hkeep hne).trans halone.1, halone.2⟩
  · obtain ⟨hsome, a, flags, hp, ha, hflags⟩ := h.copying space c hc
    have hk : (space, c.page) ≠ key := by
      rintro rfl
      exact Option.some_ne_none c (hc.symm.trans hunlocked)
    refine ⟨?_, a, flags, by simpa [Spaces.setPte, hk] using hp, ha, hflags⟩
    by_cases hcf : c.frame = pte.frame
    · have hn : n ≠ 1 := fun hn => hsafe hn space c hc hcf
      simp [Spaces.setPte, hmem, hcf, hn]
    · exact (hkeep hcf).symm ▸ hsome

theorem allocated_released (h : Inv lost s) {n : UInt8} (hrefs : s.mem.refs f = some n) (g : φ) :
    (s.released f n).allocated g = ((s.released f n).refs g).isSome := by
  by_cases hgf : g = f
  · subst hgf
    by_cases hn : n = 1
    · simp [Spaces.released, hn]
    · simpa [Spaces.released, hn, hrefs] using h.allocated g
  · by_cases hn : n = 1
    · simpa [Spaces.released, hn, hgf] using h.allocated g
    · simpa [Spaces.released, hn, hgf] using h.allocated g

theorem munmap (h : Inv lost s) (hunlocked : s.copies key.1 = none)
    (hsafe : ∀ pte, s.pt key = some pte → s.mem.refs pte.frame = some 1 → s.Settled pte.frame) :
    Inv lost (s.munmap key) := by
  cases hpte : s.pt key with
  | none => simpa [Spaces.munmap, Spaces.setArea, hpte] using h.setArea hpte none
  | some pte =>
      obtain ⟨n, hrefs⟩ := Option.isSome_iff_exists.mp (h.mapped hpte)
      have hdrop : Inv lost ({ s with mem := s.released pte.frame n }.setPte key none) :=
        h.dropPte hunlocked hpte hrefs (fun hn => hsafe pte hpte (hn ▸ hrefs)) rfl (h.allocated_released hrefs)
      have heq : s.munmap key = ({ s with mem := s.released pte.frame n }.setPte key none).setArea key none := by
        by_cases hn : n = 1
        · subst hn
          simp [Spaces.munmap, Spaces.setArea, Spaces.setPte, hpte, Memory.decFrameRef_some hrefs, Memory.deallocFrame,
            Spaces.released]
        · have hn' : n.toNat ≠ 1 := fun he => hn (UInt8.toNat_inj.mp he)
          simp [Spaces.munmap, Spaces.setArea, Spaces.setPte, hpte, Memory.decFrameRef_some hrefs, Spaces.released, hn,
            hn']
      rw [heq]
      exact hdrop.setArea (by simp [Spaces.setPte]) none

/-- One page of `fork`: the frame gets another holder and both may only read it. -/
theorem share (h : Inv lost s) {old new : τ × Nat} (hne : old ≠ new) (hold : s.copies old.1 = none)
    (hnew : s.copies new.1 = none) (hfresh : s.pt new = none) (hpte : s.pt old = some pte)
    (harea : s.areas old = some area) (harea' : s.areas new = some area) (hroom : s.mem.refs pte.frame ≠ some 255) :
    Inv lost (({ s with mem := s.mem.incFrameRef pte.frame }.setPte old
      (some ⟨pte.frame, area.flags.withoutWrite⟩)).setPte new (some ⟨pte.frame, area.flags.withoutWrite⟩)) := by
  -- first the old page loses the right to write, then the new one joins
  have hread : Inv lost (s.setPte old (some ⟨pte.frame, area.flags.withoutWrite⟩)) :=
    h.reflag hold hpte harea (.inr rfl) (by simp [MappingFlags.withoutWrite])
  have hkey : (s.setPte old (some ⟨pte.frame, area.flags.withoutWrite⟩)).holder new = none := by
    simp [Spaces.holder, Spaces.setPte, hne.symm, hfresh]
  have hholds : s.holder old = some pte.frame := by simp [Spaces.holder_of_unlocked hold, hpte]
  have hholder : (({ s with mem := s.mem.incFrameRef pte.frame }.setPte old
      (some ⟨pte.frame, area.flags.withoutWrite⟩)).setPte new (some ⟨pte.frame, area.flags.withoutWrite⟩)).holder =
      Function.update (s.setPte old (some ⟨pte.frame, area.flags.withoutWrite⟩)).holder new (some pte.frame) :=
    Spaces.holder_setPte (s := s.setPte old (some ⟨pte.frame, area.flags.withoutWrite⟩)) hnew _
  refine ⟨?_, fun g => ?_, fun k p hp hwrite => ?_, fun k p hp => ?_, fun space c hc => ?_⟩
  · rw [hholder]
    exact hread.counts.take hkey (h.counts.notMem_lost hholds) hroom
  · by_cases hg : g = pte.frame
    · subst hg
      simpa [Spaces.setPte, Memory.incFrameRef, h.mapped hpte] using h.allocated pte.frame
    · simpa [Spaces.setPte, Memory.incFrameRef, hg] using h.allocated g
  · by_cases hk : k = new
    · subst hk
      obtain rfl : p = ⟨pte.frame, area.flags.withoutWrite⟩ := by simpa [Spaces.setPte] using hp.symm
      simp [MappingFlags.withoutWrite] at hwrite
    · have hp' : (s.setPte old (some ⟨pte.frame, area.flags.withoutWrite⟩)).pt k = some p := by
        simpa [Spaces.setPte, hk] using hp
      have hk' : k ≠ old := by
        rintro rfl
        obtain rfl : p = ⟨pte.frame, area.flags.withoutWrite⟩ := by simpa [Spaces.setPte] using hp'.symm
        simp [MappingFlags.withoutWrite] at hwrite
      have hp'' : s.pt k = some p := by simpa [Spaces.setPte, hk'] using hp'
      have halone := h.exclusive k p hp'' hwrite
      have hframe : p.frame ≠ pte.frame := fun he => hk' (h.eq_of_alone hp'' hpte halone he.symm).symm
      exact ⟨by simpa [Spaces.setPte, Memory.incFrameRef, hframe] using halone.1, halone.2⟩
  · by_cases hk : k = new
    · subst hk
      obtain rfl : p = ⟨pte.frame, area.flags.withoutWrite⟩ := by simpa [Spaces.setPte] using hp.symm
      exact ⟨area, harea', .inr rfl⟩
    · exact hread.granted k p (by simpa [Spaces.setPte, hk] using hp)
  · obtain ⟨hsome, a, flags, hp, ha, hflags⟩ := hread.copying space c hc
    have hk : (space, c.page) ≠ new := by
      rintro rfl
      exact Option.some_ne_none c (hc.symm.trans hnew)
    refine ⟨?_, a, flags, by simpa [Spaces.setPte, hk] using hp, ha, hflags⟩
    by_cases hcf : c.frame = pte.frame
    · simp [Spaces.setPte, Memory.incFrameRef, hcf]
    · simpa [Spaces.setPte, Memory.incFrameRef, hcf] using hsome

omit [DecidableEq φ] in
theorem mprotect (h : Inv lost s) (hunlocked : s.copies key.1 = none) {flags : MappingFlags}
    (hsafe : flags.write → ∀ pte, s.pt key = some pte → s.Alone pte.frame) : Inv lost (s.mprotect key flags) := by
  cases harea : s.areas key with
  | none => simpa [Spaces.mprotect, harea] using h
  | some area =>
      cases hpte : s.pt key with
      | none =>
          have hnone : (s.setArea key (some { area with flags })).setPte key none =
              s.setArea key (some { area with flags }) := by
            rw [Spaces.setPte, ← hpte]
            exact congrArg (fun pt => { s.setArea key (some { area with flags }) with pt })
              (Function.update_eq_self key s.pt)
          simpa [Spaces.mprotect, harea, hpte, hnone] using h.setArea hpte _
      | some pte =>
          have hprotect : Inv lost ((s.setArea key (some { area with flags })).setPte key (some ⟨pte.frame, flags⟩)) :=
            h.protect hunlocked hpte (.inl rfl) fun hwrite => hsafe hwrite pte hpte
          simpa [Spaces.mprotect, harea, hpte] using hprotect

theorem cloneMap (h : Inv lost s) {old new : τ × Nat} (hne : old ≠ new) (hold : s.copies old.1 = none)
    (hnew : s.copies new.1 = none) (hfresh : s.pt new = none)
    (hroom : ∀ pte, s.pt old = some pte → s.mem.refs pte.frame ≠ some 255) : Inv lost (s.cloneMap old new) := by
  cases harea : s.areas old with
  | none => simpa [Spaces.cloneMap, harea] using h
  | some area =>
      have h' := h.setArea hfresh (some area)
      cases hpte : s.pt old with
      | none => simpa [Spaces.cloneMap, harea, Spaces.setArea, hpte] using h'
      | some pte =>
          have hshare := h'.share hne hold hnew hfresh hpte
            (by simpa [Spaces.setArea, hne] using harea) (by simp [Spaces.setArea]) (hroom pte hpte)
          simpa [Spaces.cloneMap, harea, Spaces.setArea, hpte] using hshare

omit [DecidableEq φ] in
/-- Only the content of frames changes. -/
theorem write (h : Inv lost s) (frames : φ → Page size) : Inv lost { s with mem := { s.mem with frames } } :=
  ⟨h.counts, h.allocated, h.exclusive, h.granted, h.copying⟩

/-- A page is populated. A frame is lost only where a file cannot be read. -/
theorem populates (h : Inv lost s) (hunlocked : s.copies key.1 = none) (harea : s.areas key = some area)
    {access : MappingFlags} {frame : Option φ} {bytes : Option FileBytes} {r : Populated}
    (hsafe : ∀ pte, s.pt key = some pte → s.mem.refs pte.frame = some 1 → s.Settled pte.frame)
    (hs : s.Populates key area access frame bytes s' r) : ∃ lost', Inv lost' s' ∧ (bytes.isSome → lost' = lost) := by
  cases hs with
  | present _ _ _ => exact ⟨lost, h, fun _ => rfl⟩
  | upgrade pte hpte _ hrefs =>
      exact ⟨lost, h.reflag hunlocked hpte harea (.inl rfl) fun _ => ⟨hrefs, hsafe pte hpte hrefs⟩, fun _ => rfl⟩
  | give pte n hpte _ hrefs hone => exact ⟨lost, h.give hunlocked hpte harea hrefs hone, fun _ => rfl⟩
  | noFrame _ => exact ⟨lost, h, fun _ => rfl⟩
  | unread f _ hfree hbytes =>
      refine ⟨insert f lost, h.unread hfree, fun hsome => ?_⟩
      obtain ⟨b, rfl⟩ := Option.isSome_iff_exists.mp hsome
      unfold CowBackend.content at hbytes
      split at hbytes <;> simp at hbytes
  | mapped f content hpte hfree _ => exact ⟨lost, h.mapNew hunlocked harea hpte hfree, fun _ => rfl⟩

end Operations

end Inv

/-! ## Runs -/

/-- The file that the action reads can be read. -/
def SpaceAct.Reads : SpaceAct τ φ size → Prop
  | .fault _ _ _ bytes | .populate _ _ _ bytes => bytes.isSome
  | .mmap _ _ | .finish _ _ | .munmap _ | .mprotect _ _ | .clone _ _ _ | .store _ _ _ => True

theorem Inv.init [DecidableEq φ] : Inv ∅ (spaces τ φ size).init where
  counts := ⟨fun f _ => by simp [spaces, sharers, Spaces.holder], fun f => by simp [spaces], fun f hf => hf.elim⟩
  allocated _ := rfl
  exclusive _ _ hp := by simp [spaces] at hp
  granted _ _ hp := by simp [spaces] at hp
  copying _ _ hc := by simp [spaces] at hc

theorem Inv.step [DecidableEq φ] {s' : Spaces τ φ size} {a : SpaceAct τ φ size} (h : Inv lost s) (hsafe : Safe s a)
    (hs : (spaces τ φ size).step s a = some s') : ∃ lost', Inv lost' s' ∧ (a.Reads → lost' = lost) := by
  cases a with
  | mmap key area =>
      obtain ⟨⟨_, harea⟩, hs⟩ := Option.ite_none_right_eq_some.mp hs
      obtain rfl := Option.some.inj hs
      exact ⟨lost, h.setArea (h.pt_eq_none (Option.isNone_iff_eq_none.mp harea)) _, fun _ => rfl⟩
  | fault key access frame bytes =>
      obtain ⟨hunlocked, hs⟩ := Option.ite_none_right_eq_some.mp hs
      obtain ⟨⟨s₁, b⟩, hfault, rfl⟩ := Option.map_eq_some_iff.mp hs
      rcases Spaces.handlePageFault_cases hfault with ⟨_, rfl⟩ | ⟨area, r, harea, _, hpopulates⟩
      · exact ⟨lost, h, fun _ => rfl⟩
      · exact h.populates (Option.isNone_iff_eq_none.mp hunlocked) harea hsafe hpopulates
  | populate key access frame bytes =>
      obtain ⟨hunlocked, hs⟩ := Option.ite_none_right_eq_some.mp hs
      rcases Spaces.populateArea_cases hs with ⟨_, rfl⟩ | ⟨area, r, harea, hpopulates⟩
      · exact ⟨lost, h, fun _ => rfl⟩
      · exact h.populates (Option.isNone_iff_eq_none.mp hunlocked) harea hsafe hpopulates
  | finish space frame =>
      obtain ⟨f, rfl⟩ := Option.isSome_iff_exists.mp hsafe
      obtain ⟨⟨s₁, r⟩, hfinish, rfl⟩ := Option.map_eq_some_iff.mp hs
      obtain ⟨c, hc, hfree, _, rfl⟩ := Spaces.finishCowFault_cases hfinish
      exact ⟨lost, h.finish hc hfree, fun _ => rfl⟩
  | munmap key =>
      obtain ⟨hunlocked, hs⟩ := Option.ite_none_right_eq_some.mp hs
      obtain rfl := Option.some.inj hs
      exact ⟨lost, h.munmap (Option.isNone_iff_eq_none.mp hunlocked) hsafe, fun _ => rfl⟩
  | mprotect key flags =>
      obtain ⟨hunlocked, hs⟩ := Option.ite_none_right_eq_some.mp hs
      obtain rfl := Option.some.inj hs
      exact ⟨lost, h.mprotect (Option.isNone_iff_eq_none.mp hunlocked) hsafe, fun _ => rfl⟩
  | clone old new page =>
      obtain ⟨⟨hold, hnew, _, hfresh, hne⟩, hs⟩ := Option.ite_none_right_eq_some.mp hs
      obtain rfl := Option.some.inj hs
      exact ⟨lost, h.cloneMap (fun he => hne (Prod.mk.inj he).1) (Option.isNone_iff_eq_none.mp hold)
        (Option.isNone_iff_eq_none.mp hnew) (Option.isNone_iff_eq_none.mp hfresh) hsafe, fun _ => rfl⟩
  | store key offset byte =>
      obtain ⟨pte, _, _, rfl⟩ := Spaces.store_cases hs
      exact ⟨lost, h.write _, fun _ => rfl⟩

end Rknpu.Axmm
