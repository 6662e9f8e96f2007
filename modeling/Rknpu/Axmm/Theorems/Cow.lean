import Rknpu.Axmm.Lemmas.Isolation

/-!
# Copy-on-write memory is private memory

The purpose of it all: every address space has pages of its own, and `fork` copies them. The address spaces that share
frames behave like that as long as their actions are safe.
-/

namespace Rknpu.Axmm

/-! ## Private pages -/

/-- Address spaces that share nothing. -/
structure PrivatePages (τ : Type) (size : Nat) where
  areas : τ × Nat → Option Area
  pages : τ × Nat → Option (Page size)

namespace PrivatePages

variable {τ φ : Type} {size : Nat} [DecidableEq τ]

/-- A page that is not there yet gets its first content. -/
def populate (t : PrivatePages τ size) (key : τ × Nat) (area : Area) (frame : Option φ) (bytes : Option FileBytes) :
    PrivatePages τ size :=
  if (t.pages key).isNone ∧ frame.isSome then
    { t with pages := Function.update t.pages key (area.backend.content (key.2 * size) bytes) }
  else t

end PrivatePages

/-- The runs of address spaces that share nothing. A fork copies the page, and to finish a copy is to do nothing. -/
def privatePages (τ φ : Type) (size : Nat) [DecidableEq τ] : Machine (PrivatePages τ size) (SpaceAct τ φ size) where
  init := ⟨fun _ => none, fun _ => none⟩
  step t
    | .mmap key area => some { t with areas := Function.update t.areas key (some area) }
    | .fault key access frame bytes =>
        some ((t.areas key).elim t fun area =>
          if area.flags.contains access then t.populate key area frame bytes else t)
    | .populate key _ frame bytes => some ((t.areas key).elim t fun area => t.populate key area frame bytes)
    | .finish _ _ => some t
    | .munmap key => some ⟨Function.update t.areas key none, Function.update t.pages key none⟩
    | .mprotect key flags =>
        some { t with areas := Function.update t.areas key ((t.areas key).map fun area => { area with flags }) }
    | .clone old new page =>
        some ⟨Function.update t.areas (new, page) (t.areas (old, page)),
          Function.update t.pages (new, page) (t.pages (old, page))⟩
    | .store key offset byte =>
        if (t.areas key).any fun area => area.flags.write then
          (t.pages key).map fun content =>
            { t with pages := Function.update t.pages key (some (Function.update content offset byte)) }
        else none

namespace Spaces

variable {τ φ : Type} {size : Nat}

/-- What a page holds. -/
def view (s : Spaces τ φ size) (key : τ × Nat) : Option (Page size) := (s.pt key).map fun pte => s.mem.frames pte.frame

end Spaces

variable {τ φ : Type} {size : Nat} [DecidableEq τ] [DecidableEq φ] {s s' : Spaces τ φ size} {lost : Set φ}
  {key : τ × Nat} {pte : Pte φ} {area : Area} {f : φ} {content : Page size}

/-! ## What the pages hold -/

namespace Spaces

omit [DecidableEq φ] in
@[simp] theorem areas_setPte (o : Option (Pte φ)) : (s.setPte key o).areas = s.areas := rfl

omit [DecidableEq φ] in
theorem view_setPte (o : Option (Pte φ)) :
    (s.setPte key o).view = Function.update s.view key (o.map fun pte => s.mem.frames pte.frame) := by
  funext k
  by_cases hk : k = key
  · subst hk
    simp [view, setPte]
  · simp [view, setPte, hk]

end Spaces

namespace Inv

/-- The content of a free frame is seen by nobody. -/
theorem view_withFrame (h : Inv lost s) (hfree : s.mem.allocated f = false) :
    { s with mem := s.withFrame f content }.view = s.view := by
  funext k
  cases hpte : s.pt k with
  | none => simp [Spaces.view, hpte]
  | some p => simp [Spaces.view, hpte, Spaces.withFrame, h.frame_ne (h.refs_of_free hfree) hpte]

theorem view_mapNew (h : Inv lost s) (hfree : s.mem.allocated f = false) (flags : MappingFlags) :
    ({ s with mem := s.withFrame f content }.setPte key (some ⟨f, flags⟩)).view =
      Function.update s.view key (some content) := by
  rw [Spaces.view_setPte, h.view_withFrame hfree]
  simp [Spaces.withFrame]

/-- A store is seen by one page. -/
theorem view_store (h : Inv lost s) (hpte : s.pt key = some pte) (hwrite : pte.flags.write) :
    { s with mem := s.mem.write pte.frame content }.view = Function.update s.view key (some content) := by
  funext k
  by_cases hk : k = key
  · subst hk
    simp [Spaces.view, hpte, Memory.write]
  · rw [Function.update_of_ne hk]
    cases hp : s.pt k with
    | none => simp [Spaces.view, hp]
    | some p =>
        have hne : p.frame ≠ pte.frame := fun he => hk (h.eq_of_alone hpte hp (h.exclusive key pte hpte hwrite) he)
        simp [Spaces.view, hp, Memory.write, hne]

/-- A copy under way is finished: the page holds what it held. -/
theorem view_finish (h : Inv lost s) {space : τ} {c : Copying φ} (hc : s.copies space = some c)
    (hfree : s.mem.allocated f = false) :
    (({ s with mem := s.withFrame f (s.mem.frames c.frame) }.setPte (space, c.page)
      (some ⟨f, c.flags⟩)).setCopying space none).view = s.view := by
  obtain ⟨_, _, flags, hpte, _, _⟩ := h.copying space c hc
  have hheld : s.view (space, c.page) = some (s.mem.frames c.frame) := by simp [Spaces.view, hpte]
  refine (h.view_mapNew hfree c.flags).trans ?_
  rw [← hheld, Function.update_eq_self]

/-- A page is populated: it gets its first content, or holds what it held. -/
theorem view_populates (h : Inv lost s) {access : MappingFlags} {frame : Option φ} {bytes : Option FileBytes}
    {r : Populated} (hs : s.Populates key area access frame bytes s' r) :
    (⟨s'.areas, s'.view⟩ : PrivatePages τ size) = PrivatePages.populate ⟨s.areas, s.view⟩ key area frame bytes := by
  have hnone : s.pt key = none → s.view key = none := fun hpte => by simp [Spaces.view, hpte]
  have hsome : ∀ {p}, s.pt key = some p → s.view key = some (s.mem.frames p.frame) := fun hpte => by
    simp [Spaces.view, hpte]
  cases hs with
  | present pte hpte _ => simp [PrivatePages.populate, hsome hpte]
  | upgrade pte hpte _ _ =>
      have hview : (s.setPte key (some ⟨pte.frame, area.flags⟩)).view = s.view := by
        rw [Spaces.view_setPte, Option.map_some, ← hsome hpte, Function.update_eq_self]
      simp [PrivatePages.populate, hsome hpte, hview]
  | give pte n hpte _ hrefs _ =>
      simp only [PrivatePages.populate, hsome hpte, Memory.decFrameRef_some hrefs]
      rfl
  | noFrame _ => simp [PrivatePages.populate]
  | unread f hpte hfree hbytes =>
      have hsame : Function.update s.view key none = s.view := by rw [← hnone hpte, Function.update_eq_self]
      simp [PrivatePages.populate, hnone hpte, h.view_withFrame hfree, hbytes, hsame]
  | mapped f content hpte hfree hbytes =>
      simp [PrivatePages.populate, hnone hpte, h.view_mapNew hfree area.flags, hbytes]

theorem view_munmap (s : Spaces τ φ size) (key : τ × Nat) :
    (s.munmap key).areas = Function.update s.areas key none ∧ (s.munmap key).view = Function.update s.view key none := by
  cases hpte : s.pt key with
  | none =>
      have hview : s.view key = none := by simp [Spaces.view, hpte]
      have heq : s.munmap key = s.setArea key none := by simp [Spaces.munmap, Spaces.setArea, hpte]
      have hsame : Function.update s.view key none = s.view := Function.update_eq_self_iff.mpr hview.symm
      rw [heq, hsame]
      exact ⟨rfl, rfl⟩
  | some pte =>
      refine ⟨by simp [Spaces.munmap, Spaces.setArea, Spaces.setPte, hpte], ?_⟩
      -- no frame changes its content, freed or not
      have hframes : (if (s.mem.decFrameRef pte.frame).2 = 1 then
          (s.mem.decFrameRef pte.frame).1.deallocFrame pte.frame else (s.mem.decFrameRef pte.frame).1).frames =
          s.mem.frames := by
        cases hrefs : s.mem.refs pte.frame with
        | none => simp [Memory.decFrameRef_none hrefs]
        | some n => split <;> simp [Memory.decFrameRef_some hrefs, Memory.deallocFrame]
      funext k
      by_cases hk : k = key
      · subst hk
        simp [Spaces.view, Spaces.munmap, Spaces.setArea, Spaces.setPte, hpte]
      · simp only [Spaces.view, Spaces.munmap, Spaces.setArea, Spaces.setPte, hpte, Function.update_of_ne hk]
        exact congrArg (fun frames => (s.pt k).map fun p => frames p.frame) hframes

omit [DecidableEq φ] in
theorem view_mprotect (s : Spaces τ φ size) (key : τ × Nat) (flags : MappingFlags) :
    (s.mprotect key flags).areas =
        Function.update s.areas key ((s.areas key).map fun area => { area with flags }) ∧
      (s.mprotect key flags).view = s.view := by
  cases harea : s.areas key with
  | none =>
      rw [Option.map_none, Function.update_eq_self_iff.mpr harea.symm]
      simp [Spaces.mprotect, harea]
  | some area =>
      refine ⟨by simp [Spaces.mprotect, harea, Spaces.setArea, Spaces.setPte], ?_⟩
      funext k
      by_cases hk : k = key
      · subst hk
        cases hpte : s.pt k <;> simp [Spaces.mprotect, harea, Spaces.view, Spaces.setArea, Spaces.setPte, hpte]
      · simp [Spaces.mprotect, harea, Spaces.view, Spaces.setArea, Spaces.setPte, hk]

theorem view_cloneMap (h : Inv lost s) {old new : τ × Nat} (hne : old ≠ new) (harea' : s.areas new = none) :
    (s.cloneMap old new).areas = Function.update s.areas new (s.areas old) ∧
      (s.cloneMap old new).view = Function.update s.view new (s.view old) := by
  have hfresh : s.view new = none := by simp [Spaces.view, h.pt_eq_none harea']
  cases harea : s.areas old with
  | none =>
      have hold : s.view old = none := by simp [Spaces.view, h.pt_eq_none harea]
      rw [hold, Function.update_eq_self_iff.mpr harea'.symm, Function.update_eq_self_iff.mpr hfresh.symm]
      simp [Spaces.cloneMap, harea]
  | some area =>
      cases hpte : s.pt old with
      | none =>
          have hold : s.view old = none := by simp [Spaces.view, hpte]
          have heq : s.cloneMap old new = s.setArea new (some area) := by
            simp [Spaces.cloneMap, harea, Spaces.setArea, hpte]
          rw [heq, hold, ← hfresh, Function.update_eq_self]
          exact ⟨rfl, rfl⟩
      | some pte =>
          refine ⟨by simp [Spaces.cloneMap, harea, Spaces.setArea, Spaces.setPte, hpte], ?_⟩
          funext k
          by_cases hk : k = new
          · subst hk
            simp [Spaces.cloneMap, harea, Spaces.setArea, Spaces.setPte, hpte, Spaces.view, Memory.incFrameRef]
          · by_cases hk' : k = old
            · subst hk'
              simp [Spaces.cloneMap, harea, Spaces.setArea, Spaces.setPte, hpte, Spaces.view, Memory.incFrameRef, hne]
            · simp [Spaces.cloneMap, harea, Spaces.setArea, Spaces.setPte, hpte, Spaces.view, Memory.incFrameRef, hk,
                hk']

/-- A safe action does to the pages what it does to private ones. -/
theorem view_step (h : Inv lost s) {a : SpaceAct τ φ size} (hsafe : Safe s a)
    (hs : (spaces τ φ size).step s a = some s') :
    (privatePages τ φ size).step ⟨s.areas, s.view⟩ a = some ⟨s'.areas, s'.view⟩ := by
  cases a with
  | mmap key area =>
      obtain ⟨_, hs⟩ := Option.ite_none_right_eq_some.mp hs
      obtain rfl := Option.some.inj hs
      rfl
  | fault key access frame bytes =>
      obtain ⟨_, hs⟩ := Option.ite_none_right_eq_some.mp hs
      obtain ⟨⟨s₁, b⟩, hfault, rfl⟩ := Option.map_eq_some_iff.mp hs
      rcases Spaces.handlePageFault_cases hfault with ⟨hdenied, rfl⟩ | ⟨area, r, harea, haccess, hpopulates⟩
      · cases harea : s₁.areas key with
        | none => simp [privatePages, harea]
        | some area => simp [privatePages, harea, hdenied area harea]
      · rw [h.view_populates hpopulates]
        simp [privatePages, harea, haccess]
  | populate key access frame bytes =>
      obtain ⟨_, hs⟩ := Option.ite_none_right_eq_some.mp hs
      rcases Spaces.populateArea_cases hs with ⟨harea, rfl⟩ | ⟨area, r, harea, hpopulates⟩
      · simp [privatePages, harea]
      · rw [h.view_populates hpopulates]
        simp [privatePages, harea]
  | finish space frame =>
      obtain ⟨f, rfl⟩ := Option.isSome_iff_exists.mp hsafe
      obtain ⟨⟨s₁, r⟩, hfinish, rfl⟩ := Option.map_eq_some_iff.mp hs
      obtain ⟨c, hc, hfree, _, rfl⟩ := Spaces.finishCowFault_cases hfinish
      rw [h.view_finish hc hfree]
      rfl
  | munmap key =>
      obtain ⟨_, hs⟩ := Option.ite_none_right_eq_some.mp hs
      obtain rfl := Option.some.inj hs
      obtain ⟨hareas, hview⟩ := view_munmap s key
      rw [hareas, hview]
      rfl
  | mprotect key flags =>
      obtain ⟨_, hs⟩ := Option.ite_none_right_eq_some.mp hs
      obtain rfl := Option.some.inj hs
      obtain ⟨hareas, hview⟩ := view_mprotect s key flags
      rw [hareas, hview]
      rfl
  | clone old new page =>
      obtain ⟨⟨_, _, harea, _, hne⟩, hs⟩ := Option.ite_none_right_eq_some.mp hs
      obtain rfl := Option.some.inj hs
      obtain ⟨hareas, hview⟩ := h.view_cloneMap
        (show (old, page) ≠ (new, page) from fun he => hne (Prod.mk.inj he).1) (Option.isNone_iff_eq_none.mp harea)
      rw [hareas, hview]
      rfl
  | store key offset byte =>
      obtain ⟨pte, hpte, hwrite, rfl⟩ := Spaces.store_cases hs
      obtain ⟨area, harea, hflags⟩ := h.granted key pte hpte
      have harea_write : area.flags.write := by
        rcases hflags with he | he
        · exact he ▸ hwrite
        · simp [he, MappingFlags.withoutWrite] at hwrite
      rw [h.view_store hpte hwrite]
      simp [privatePages, harea, harea_write, Spaces.view, hpte]

end Inv

/-! ## Whole runs -/

/-- Address spaces that share frames hold what address spaces that share nothing would hold. -/
theorem copy_on_write_private {as : List (SpaceAct τ φ size)} (hrun : (spaces τ φ size).run as = some s)
    (hsafe : ∀ s a, (spaces τ φ size).Takes as s a → Safe s a) :
    (privatePages τ φ size).run as = some ⟨s.areas, s.view⟩ := by
  obtain ⟨t, ht, _, rfl⟩ := Machine.run_simulation (N := privatePages τ φ size)
    (R := fun s t => (∃ lost, Inv lost s) ∧ t = ⟨s.areas, s.view⟩) ⟨⟨∅, Inv.init⟩, rfl⟩ (fun s t a s' hR hok hs => by
      obtain ⟨⟨lost, hinv⟩, rfl⟩ := hR
      obtain ⟨lost', hinv', _⟩ := hinv.step hok hs
      exact ⟨_, hinv.view_step hok hs, ⟨lost', hinv'⟩, rfl⟩) hrun hsafe
  exact ht

/-- An anonymous area that may be written. -/
def plainArea : Area := ⟨⟨true, true, false, true⟩, ⟨0, none⟩⟩

/-- A page is written and forked, and the child begins to write it. -/
def forkRun : List (SpaceAct Bool Nat 1) :=
  [.mmap (false, 0) plainArea, .fault (false, 0) plainArea.flags (some 0) (some fun _ => none),
    .store (false, 0) ⟨0, Nat.one_pos⟩ 7, .clone false true 0,
    .fault (true, 0) plainArea.flags none (some fun _ => none)]

/-- The child goes on to write the page. -/
def childRun : List (SpaceAct Bool Nat 1) := forkRun ++ [.finish true (some 1), .store (true, 0) ⟨0, Nat.one_pos⟩ 9]

theorem childRun_safe (s : Spaces Bool Nat 1) (a : SpaceAct Bool Nat 1) (h : (spaces Bool Nat 1).Takes childRun s a) :
    Safe s a :=
  of_decide_eq_true (Machine.forall_takes_of_check (p := fun s a => decide (Safe s a)) (by decide +kernel) s a h)

theorem copy_on_write_private_child : ∃ s, (spaces Bool Nat 1).run childRun = some s ∧
    ((s.view (false, 0)).map fun page => page ⟨0, Nat.one_pos⟩) = some 7 ∧
    ((s.view (true, 0)).map fun page => page ⟨0, Nat.one_pos⟩) = some 9 ∧
    (privatePages Bool Nat 1).run childRun = some ⟨s.areas, s.view⟩ := by
  obtain ⟨s, hrun, hs⟩ := (Option.any_eq_true (fun s : Spaces Bool Nat 1 =>
    decide (((s.view (false, 0)).map fun page => page ⟨0, Nat.one_pos⟩) = some 7 ∧
      ((s.view (true, 0)).map fun page => page ⟨0, Nat.one_pos⟩) = some 9))
    ((spaces Bool Nat 1).run childRun)).mp (by decide +kernel)
  obtain ⟨hparent, hchild⟩ := of_decide_eq_true hs
  exact ⟨s, hrun, hparent, hchild, copy_on_write_private hrun childRun_safe⟩

namespace MappingFlags

theorem contains_self (flags : MappingFlags) : flags.contains flags := by
  simp [contains]

end MappingFlags

/-- A fault has given up its reference, and a page of another space is left with the last one. That page may now be
written in place, and the copy that is made afterwards holds the byte that the other space has written. -/
theorem copy_race {space : τ} {c : Copying φ} (hc : s.copies space = some c) (hunlocked : s.copies key.1 = none)
    (hpte : s.pt key = some pte) (hframe : pte.frame = c.frame) (hread : pte.flags.write = false)
    (hrefs : s.mem.refs c.frame = some 1) (harea : s.areas key = some area) (hwrite : area.flags.write)
    (hfree : s.mem.allocated f = false) (offset : Fin size) (byte : UInt8) :
    ∃ s', (spaces τ φ size).runFrom s
        [.fault key area.flags none none, .store key offset byte, .finish space (some f)] = some s' ∧
      s'.view (space, c.page) = some (Function.update (s.mem.frames c.frame) offset byte) := by
  -- the other page is alone with the frame now
  have hinc := Memory.incFrameRef_decFrameRef hrefs
  have hfault : (spaces τ φ size).step s (.fault key area.flags none none) =
      some (s.setPte key (some ⟨c.frame, area.flags⟩)) := by
    have hprev : (s.mem.decFrameRef c.frame).2 = 1 := by
      rw [Memory.decFrameRef_some hrefs]
      rfl
    simp only [spaces, hunlocked, Spaces.handlePageFault_eq harea area.flags.contains_self, Spaces.populate, hpte,
      hwrite, hread, hframe, Spaces.handleCowFault, hprev, hinc]
    rfl
  have hstore : (spaces τ φ size).step (s.setPte key (some ⟨c.frame, area.flags⟩)) (.store key offset byte) =
      some { s.setPte key (some ⟨c.frame, area.flags⟩) with
        mem := s.mem.write c.frame (Function.update (s.mem.frames c.frame) offset byte) } := by
    simp [spaces, Spaces.store, Spaces.setPte, hwrite]
  have hfinish := Spaces.finishCowFault_eq (s := { s.setPte key (some ⟨c.frame, area.flags⟩) with
    mem := s.mem.write c.frame (Function.update (s.mem.frames c.frame) offset byte) }) hc hfree
  obtain ⟨s', hs', hview⟩ : ∃ s', Spaces.finishCowFault { s.setPte key (some ⟨c.frame, area.flags⟩) with
      mem := s.mem.write c.frame (Function.update (s.mem.frames c.frame) offset byte) } space (some f) =
      some (s', .ok 1) ∧ s'.view (space, c.page) = some (Function.update (s.mem.frames c.frame) offset byte) :=
    ⟨_, hfinish, by simp [Spaces.view, Spaces.setPte, Spaces.setCopying, Spaces.withFrame, Memory.write]⟩
  refine ⟨s', ?_, hview⟩
  rw [Machine.runFrom, hfault, Option.bind_some, Machine.runFrom, hstore, Option.bind_some, Machine.runFrom]
  exact congrArg (fun r => (r.map Prod.fst).bind some) hs'

theorem copy_race_fork : ∃ s s', (spaces Bool Nat 1).run forkRun = some s ∧
    (spaces Bool Nat 1).runFrom s [.fault (false, 0) plainArea.flags none none, .store (false, 0) ⟨0, Nat.one_pos⟩ 5,
      .finish true (some 1)] = some s' ∧
    s'.view (true, 0) = some (Function.update (s.mem.frames 0) ⟨0, Nat.one_pos⟩ 5) := by
  obtain ⟨s, hrun, hs⟩ := (Option.any_eq_true (fun s : Spaces Bool Nat 1 =>
    decide (s.copies true = some ⟨0, 0, plainArea.flags⟩ ∧ s.copies false = none ∧
      s.pt (false, 0) = some ⟨0, plainArea.flags.withoutWrite⟩ ∧ s.mem.refs 0 = some 1 ∧
      s.areas (false, 0) = some plainArea ∧ s.mem.allocated 1 = false))
    ((spaces Bool Nat 1).run forkRun)).mp (by decide +kernel)
  obtain ⟨hc, hunlocked, hpte, hrefs, harea, hfree⟩ := of_decide_eq_true hs
  obtain ⟨s', hs', hview⟩ := copy_race hc hunlocked hpte rfl rfl hrefs harea rfl hfree ⟨0, Nat.one_pos⟩ 5
  exact ⟨s, s', hrun, hs', hview⟩

end Rknpu.Axmm
