import Rknpu.Axmm.Cow

/-!
# What the actions on address spaces do

Every action changes who holds a reference to a frame at one page at most, and changes the count of that frame along
with it.
-/

namespace Rknpu.Axmm

/-! ## Counts -/

section Counts

variable {κ φ : Type}

/-- The counts are the numbers of holders. A frame that was lost on the way has a count and no holder. -/
structure Counts (lost : Set φ) (refs : φ → Option UInt8) (holder : κ → Option φ) : Prop where
  held : ∀ f, f ∉ lost → (((refs f).elim 0 UInt8.toNat : Nat) : ℕ∞) = (sharers holder f).encard
  positive : ∀ f, refs f ≠ some 0
  lost : ∀ f, f ∈ lost → refs f = some 1 ∧ sharers holder f = ∅

variable {lost : Set φ} {refs : φ → Option UInt8} {holder : κ → Option φ} {key : κ} {f : φ} {n : UInt8}

/-- The count has room. -/
theorem toNat_getD_add_one {o : Option UInt8} (h : o ≠ some 255) : (o.getD 0 + 1).toNat = o.elim 0 UInt8.toNat + 1 := by
  cases o with
  | none => rfl
  | some n =>
      have hn : n.toNat ≠ 255 := fun he => h (congrArg some (UInt8.toNat_inj.mp he))
      have hlt := n.toNat_lt
      simp only [Option.getD_some, Option.elim_some, UInt8.toNat_add, UInt8.toNat_one]
      omega

theorem elim_sub_one (h : n ≠ 0) : (if n = 1 then none else some (n - 1)).elim 0 UInt8.toNat + 1 = n.toNat := by
  have hn : n.toNat ≠ 0 := fun he => h (UInt8.toNat_inj.mp he)
  have hlt := n.toNat_lt
  split
  · rename_i hone
    simp [hone]
  · simp only [Option.elim_some, UInt8.toNat_sub, UInt8.toNat_one]
    omega

namespace Counts

theorem notMem_lost (h : Counts lost refs holder) (hkey : holder key = some f) : f ∉ lost := by
  intro hf
  have hmem : key ∈ sharers holder f := hkey
  rw [(h.lost f hf).2] at hmem
  exact hmem

theorem isSome (h : Counts lost refs holder) (hkey : holder key = some f) : (refs f).isSome := by
  have hcount := h.held f (h.notMem_lost hkey)
  have hone := one_le_encard_sharers hkey
  cases hrefs : refs f with
  | none => simp [← hcount, hrefs] at hone
  | some n => rfl

theorem holder_ne (h : Counts lost refs holder) (hrefs : refs f = none) (key : κ) : holder key ≠ some f := by
  intro hkey
  simpa [hrefs] using h.isSome hkey

/-- A count of one has one holder. -/
theorem unique (h : Counts lost refs holder) (hrefs : refs f = some 1) {key' : κ} (hkey : holder key = some f)
    (hkey' : holder key' = some f) : key' = key := by
  have hcount := h.held f (h.notMem_lost hkey)
  rw [hrefs] at hcount
  exact eq_of_encard_sharers_le_one (le_of_eq hcount.symm) hkey' hkey

section Changes

variable [DecidableEq κ] [DecidableEq φ]

/-- One more holder, and the count goes up. -/
theorem take (h : Counts lost refs holder) (hkey : holder key = none) (hf : f ∉ lost) (hroom : refs f ≠ some 255) :
    Counts lost (Function.update refs f (some ((refs f).getD 0 + 1))) (Function.update holder key (some f)) := by
  have hnat : ((refs f).getD 0 + 1).toNat = (refs f).elim 0 UInt8.toNat + 1 := toNat_getD_add_one hroom
  refine ⟨fun g hg => ?_, fun g => ?_, fun g hg => ?_⟩
  · by_cases hgf : g = f
    · subst hgf
      rw [Function.update_self, encard_sharers_update_add (by simp [hkey]), ← h.held g hg, Option.elim_some, hnat]
      push_cast
      rfl
    · rw [Function.update_of_ne hgf, sharers_update_of_ne _ (by simp [hkey]) (by simpa using Ne.symm hgf)]
      exact h.held g hg
  · by_cases hgf : g = f
    · subst hgf
      rw [Function.update_self]
      intro hzero
      rw [Option.some.inj hzero] at hnat
      simp at hnat
    · rw [Function.update_of_ne hgf]
      exact h.positive g
  · have hgf : g ≠ f := by
      rintro rfl
      exact hf hg
    rw [Function.update_of_ne hgf, sharers_update_of_ne _ (by simp [hkey]) (by simpa using Ne.symm hgf)]
    exact h.lost g hg

/-- One holder less, and the count goes down. -/
theorem give (h : Counts lost refs holder) (hkey : holder key = some f) (hrefs : refs f = some n) :
    Counts lost (Function.update refs f (if n = 1 then none else some (n - 1))) (Function.update holder key none) := by
  have hn : n ≠ 0 := by
    rintro rfl
    exact h.positive f hrefs
  have hcount := h.held f (h.notMem_lost hkey)
  rw [hrefs, Option.elim_some, ← encard_sharers_update_sub none hkey (by simp)] at hcount
  refine ⟨fun g hg => ?_, fun g => ?_, fun g hg => ?_⟩
  · by_cases hgf : g = f
    · subst hgf
      rw [Function.update_self]
      have hless : (if n = 1 then none else some (n - 1)).elim 0 UInt8.toNat + 1 = n.toNat := elim_sub_one hn
      rw [← hless] at hcount
      push_cast at hcount
      exact ENat.add_left_injective_of_ne_top ENat.one_ne_top hcount
    · have hne : holder key ≠ some g := by
        rw [hkey]
        simpa using Ne.symm hgf
      rw [Function.update_of_ne hgf, sharers_update_of_ne _ hne (by simp)]
      exact h.held g hg
  · by_cases hgf : g = f
    · subst hgf
      rw [Function.update_self]
      split
      · simp
      · rename_i hone
        intro hzero
        exact hone (by simpa [sub_eq_zero] using hzero)
    · rw [Function.update_of_ne hgf]
      exact h.positive g
  · have hgf : g ≠ f := by
      rintro rfl
      exact h.notMem_lost hkey hg
    have hne : holder key ≠ some g := by
      rw [hkey]
      simpa using Ne.symm hgf
    rw [Function.update_of_ne hgf, sharers_update_of_ne _ hne (by simp)]
    exact h.lost g hg

omit [DecidableEq κ] in
/-- A new frame that is lost. -/
theorem lose (h : Counts lost refs holder) (hrefs : refs f = none) :
    Counts (insert f lost) (Function.update refs f (some ((refs f).getD 0 + 1))) holder := by
  refine ⟨fun g hg => ?_, fun g => ?_, fun g hg => ?_⟩
  · rw [Set.mem_insert_iff, not_or] at hg
    rw [Function.update_of_ne hg.1]
    exact h.held g hg.2
  · by_cases hgf : g = f
    · subst hgf
      simp [hrefs]
    · rw [Function.update_of_ne hgf]
      exact h.positive g
  · by_cases hgf : g = f
    · subst hgf
      refine ⟨by simp [hrefs], Set.eq_empty_of_forall_notMem fun key hkey => h.holder_ne hrefs key hkey⟩
    · rw [Function.update_of_ne hgf]
      exact h.lost g (hg.resolve_left hgf)

end Changes

end Counts

end Counts

/-! ## Memory -/

namespace Memory

variable {φ π : Type} [DecidableEq φ] {m m' : Memory φ π} {f : φ} {content : π}

theorem allocFrame_eq_some (h : m.allocFrame f content = some m') :
    m.allocated f = false ∧ m' =
      { m with frames := Function.update m.frames f content, allocated := Function.update m.allocated f true } := by
  unfold allocFrame at h
  split at h
  · exact absurd h (by simp)
  · rename_i hfree
    exact ⟨by simpa using hfree, (Option.some.inj h).symm⟩

theorem decFrameRef_some {n : UInt8} (h : m.refs f = some n) :
    m.decFrameRef f =
      ({ m with refs := Function.update m.refs f (if n = 1 then none else some (n - 1)) }, n.toNat) := by
  simp [decFrameRef, h]

theorem decFrameRef_none (h : m.refs f = none) : m.decFrameRef f = (m, 0) := by
  simp [decFrameRef, h]

/-- The last reference is given up and taken again. -/
theorem incFrameRef_decFrameRef (h : m.refs f = some 1) : (m.decFrameRef f).1.incFrameRef f = m := by
  have hsame : Function.update m.refs f (some 1) = m.refs := by rw [← h, Function.update_eq_self]
  simp [decFrameRef_some h, incFrameRef, hsame]

end Memory

/-! ## One page populated -/

namespace Spaces

variable {τ φ : Type} {size : Nat} [DecidableEq τ] [DecidableEq φ]

/-- The memory with a new frame and one reference to it. -/
def withFrame (s : Spaces τ φ size) (f : φ) (content : Page size) : Memory φ (Page size) where
  frames := Function.update s.mem.frames f content
  allocated := Function.update s.mem.allocated f true
  refs := Function.update s.mem.refs f (some ((s.mem.refs f).getD 0 + 1))

/-- All that `populate` can do to a page. -/
inductive Populates (s : Spaces τ φ size) (key : τ × Nat) (area : Area) (access : MappingFlags) :
    Option φ → Option FileBytes → Spaces τ φ size → Populated → Prop where
  | present {frame bytes} (pte : Pte φ) (hpte : s.pt key = some pte) (hwrite : access.write → pte.flags.write) :
      Populates s key area access frame bytes s (.ok 0)
  | upgrade {frame bytes} (pte : Pte φ) (hpte : s.pt key = some pte) (hwrite : pte.flags.write = false)
      (hrefs : s.mem.refs pte.frame = some 1) :
      Populates s key area access frame bytes (s.setPte key (some ⟨pte.frame, area.flags⟩)) (.ok 1)
  | give {frame bytes} (pte : Pte φ) (n : UInt8) (hpte : s.pt key = some pte) (hwrite : pte.flags.write = false)
      (hrefs : s.mem.refs pte.frame = some n) (hone : n ≠ 1) :
      Populates s key area access frame bytes
        ({ s with mem := (s.mem.decFrameRef pte.frame).1 }.setCopying key.1 (some ⟨key.2, pte.frame, area.flags⟩))
        .copying
  | noFrame {bytes} (hpte : s.pt key = none) : Populates s key area access none bytes s .err
  | unread {bytes} (f : φ) (hpte : s.pt key = none) (hfree : s.mem.allocated f = false)
      (hbytes : (area.backend.content (key.2 * size) bytes : Option (Page size)) = none) :
      Populates s key area access (some f) bytes { s with mem := s.withFrame f fun _ => 0 } .err
  | mapped {bytes} (f : φ) (content : Page size) (hpte : s.pt key = none) (hfree : s.mem.allocated f = false)
      (hbytes : area.backend.content (key.2 * size) bytes = some content) :
      Populates s key area access (some f) bytes
        ({ s with mem := s.withFrame f content }.setPte key (some ⟨f, area.flags⟩)) (.ok 1)

variable {s s' : Spaces τ φ size} {key : τ × Nat} {area : Area} {access : MappingFlags} {frame : Option φ}
  {bytes : Option FileBytes} {r : Populated}

theorem allocNewAt_cases (hpte : s.pt key = none)
    (h : s.allocNewAt key area frame bytes = some (s', r)) : Populates s key area access frame bytes s' r := by
  cases frame with
  | none =>
      obtain ⟨rfl, rfl⟩ := Prod.mk.inj (Option.some.inj h)
      exact .noFrame hpte
  | some f =>
      simp only [allocNewAt, Option.bind_eq_bind, Option.bind_eq_some_iff] at h
      obtain ⟨mem, halloc, h⟩ := h
      obtain ⟨hfree, rfl⟩ := Memory.allocFrame_eq_some halloc
      split at h
      · split at h
        · rename_i hbytes
          obtain ⟨rfl, rfl⟩ := Prod.mk.inj (Option.some.inj h)
          exact .unread f hpte hfree hbytes
        · rename_i content hbytes
          obtain ⟨rfl, rfl⟩ := Prod.mk.inj (Option.some.inj h)
          have hmem : (Memory.incFrameRef { s.mem with
              frames := Function.update s.mem.frames f fun _ => 0,
              allocated := Function.update s.mem.allocated f true } f).write f content = s.withFrame f content := by
            simp [Memory.incFrameRef, Memory.write, withFrame]
          rw [hmem]
          exact .mapped f content hpte hfree hbytes
      · exact absurd h (by simp)

theorem handleCowFault_cases {pte : Pte φ} (hpte : s.pt key = some pte) (hwrite : pte.flags.write = false)
    (h : s.handleCowFault key pte area.flags = some (s', r)) : Populates s key area access frame bytes s' r := by
  cases hrefs : s.mem.refs pte.frame with
  | none => simp [handleCowFault, Memory.decFrameRef_none hrefs] at h
  | some n =>
      have hprev : (s.mem.decFrameRef pte.frame).2 = n.toNat := by rw [Memory.decFrameRef_some hrefs]
      simp only [handleCowFault, hprev] at h
      split at h
      · exact absurd h (by simp)
      · split at h
        · rename_i hone
          have hn : n = 1 := UInt8.toNat_inj.mp hone
          subst hn
          obtain ⟨rfl, rfl⟩ := Prod.mk.inj (Option.some.inj h)
          rw [Memory.incFrameRef_decFrameRef hrefs]
          exact .upgrade pte hpte hwrite hrefs
        · rename_i hone
          obtain ⟨rfl, rfl⟩ := Prod.mk.inj (Option.some.inj h)
          exact .give pte n hpte hwrite hrefs fun he => hone (by simp [he])

theorem populate_cases (h : s.populate key area access frame bytes = some (s', r)) :
    Populates s key area access frame bytes s' r := by
  unfold populate at h
  split at h
  · rename_i pte hpte
    split at h
    · rename_i hwrite
      simp only [Bool.and_eq_true, Bool.not_eq_true'] at hwrite
      exact handleCowFault_cases hpte hwrite.2 h
    · rename_i hwrite
      obtain ⟨rfl, rfl⟩ := Prod.mk.inj (Option.some.inj h)
      exact .present pte hpte (by simpa using hwrite)
  · rename_i hpte
    exact allocNewAt_cases hpte h

theorem populateArea_cases (h : s.populateArea key access frame bytes = some s') :
    (s.areas key = none ∧ s' = s) ∨
      ∃ area r, s.areas key = some area ∧ Populates s key area access frame bytes s' r := by
  unfold populateArea at h
  split at h
  · rename_i harea
    exact .inl ⟨harea, (Option.some.inj h).symm⟩
  · rename_i area harea
    obtain ⟨⟨s₁, r⟩, hpopulate, rfl⟩ := Option.map_eq_some_iff.mp h
    exact .inr ⟨area, r, harea, populate_cases hpopulate⟩

/-- The answer to a fault that was let through. -/
def answer (s : Spaces τ φ size) (key : τ × Nat) (access : MappingFlags) : Populated → Option Bool
  | .ok n => some (pageFaultIsResolved n (if n = 0 then (s.pt key).map Pte.flags else none) access)
  | .err => some false
  | .copying => none

theorem handlePageFault_eq (harea : s.areas key = some area) (haccess : area.flags.contains access) :
    s.handlePageFault key access frame bytes =
      (s.populate key area access frame bytes).map fun x => (x.1, x.1.answer key access x.2) := by
  simp only [handlePageFault, harea, haccess, if_true]
  cases s.populate key area access frame bytes with
  | none => rfl
  | some x =>
      obtain ⟨s₁, r⟩ := x
      cases r <;> rfl

theorem handlePageFault_cases {b : Option Bool} (h : s.handlePageFault key access frame bytes = some (s', b)) :
    ((∀ area, s.areas key = some area → area.flags.contains access = false) ∧ s' = s) ∨
      ∃ area r, s.areas key = some area ∧ area.flags.contains access ∧
        Populates s key area access frame bytes s' r := by
  cases harea : s.areas key with
  | none =>
      simp only [handlePageFault, harea, Option.some.injEq, Prod.mk.injEq] at h
      exact .inl ⟨by simp, h.1.symm⟩
  | some area =>
      by_cases haccess : area.flags.contains access
      · rw [handlePageFault_eq harea haccess] at h
        obtain ⟨⟨s₁, r⟩, hpopulate, hx⟩ := Option.map_eq_some_iff.mp h
        obtain ⟨rfl, _⟩ := Prod.mk.inj hx
        exact .inr ⟨area, r, rfl, haccess, populate_cases hpopulate⟩
      · simp only [handlePageFault, harea, haccess, Bool.false_eq_true, if_false, Option.some.injEq,
          Prod.mk.injEq] at h
        exact .inl ⟨by simpa using haccess, h.1.symm⟩

theorem finishCowFault_eq {space : τ} {c : Copying φ} {f : φ} (hc : s.copies space = some c)
    (hfree : s.mem.allocated f = false) :
    s.finishCowFault space (some f) =
      some (({ s with mem := s.withFrame f (s.mem.frames c.frame) }.setPte (space, c.page)
        (some ⟨f, c.flags⟩)).setCopying space none, .ok 1) := by
  simp only [finishCowFault, hc, Memory.allocFrame, hfree]
  rfl

theorem finishCowFault_cases {space : τ} {f : φ} (h : s.finishCowFault space (some f) = some (s', r)) :
    ∃ c, s.copies space = some c ∧ s.mem.allocated f = false ∧ r = .ok 1 ∧
      s' = ({ s with mem := s.withFrame f (s.mem.frames c.frame) }.setPte (space, c.page)
        (some ⟨f, c.flags⟩)).setCopying space none := by
  unfold finishCowFault at h
  split at h
  · exact absurd h (by simp)
  · rename_i c hc
    simp only [Option.bind_eq_bind, Option.bind_eq_some_iff] at h
    obtain ⟨mem, halloc, h⟩ := h
    obtain ⟨hfree, rfl⟩ := Memory.allocFrame_eq_some halloc
    obtain ⟨rfl, rfl⟩ := Prod.mk.inj (Option.some.inj h)
    exact ⟨c, hc, hfree, rfl, rfl⟩

omit [DecidableEq τ] in
theorem store_cases {offset : Fin size} {byte : UInt8} (h : s.store key offset byte = some s') :
    ∃ pte, s.pt key = some pte ∧ pte.flags.write ∧
      s' = { s with mem := s.mem.write pte.frame (Function.update (s.mem.frames pte.frame) offset byte) } := by
  unfold store at h
  split at h
  · exact absurd h (by simp)
  · rename_i pte hpte
    obtain ⟨hwrite, h⟩ := Option.ite_none_right_eq_some.mp h
    exact ⟨pte, hpte, hwrite, (Option.some.inj h).symm⟩

end Spaces

end Rknpu.Axmm
