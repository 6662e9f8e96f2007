import Rknpu.Pcie.BarAlloc
import Rknpu.Pcie.Lemmas.Free

/-!
# The allocator along a run

The slots tile the managed range, and those that are allocated are the ranges that clients hold.
-/

namespace Rknpu.Pcie

/-- The ranges of the allocated slots. -/
def allocatedKeys (slots : List Slot) : List RangeInclusive :=
  (slots.filter fun a => a.state = .allocated).map Slot.key

variable {slots xs ys before after : List Slot} {slot : Slot} {key result : RangeInclusive} {lo hi : Nat}

@[simp] theorem allocatedKeys_nil : allocatedKeys [] = [] := rfl

@[simp] theorem allocatedKeys_append : allocatedKeys (xs ++ ys) = allocatedKeys xs ++ allocatedKeys ys := by
  simp [allocatedKeys]

theorem allocatedKeys_cons_of_free (h : slot.state = .free) : allocatedKeys (slot :: slots) = allocatedKeys slots := by
  simp [allocatedKeys, h]

theorem allocatedKeys_cons_of_allocated (h : slot.state = .allocated) :
    allocatedKeys (slot :: slots) = slot.key :: allocatedKeys slots := by
  simp [allocatedKeys, h]

theorem mem_allocatedKeys : key ∈ allocatedKeys slots ↔ ⟨key, .allocated⟩ ∈ slots := by
  simp only [allocatedKeys, List.mem_map, List.mem_filter, decide_eq_true_eq]
  constructor
  · rintro ⟨a, ⟨hmem, hstate⟩, rfl⟩
    rw [← hstate]
    exact hmem
  · intro h
    exact ⟨_, ⟨h, rfl⟩, rfl⟩

theorem Leftover.allocatedKeys (h : Leftover lo hi slots) : allocatedKeys slots = [] := by
  simp only [Pcie.allocatedKeys, List.map_eq_nil_iff, List.filter_eq_nil_iff, decide_eq_true_eq]
  intro a ha hstate
  rw [h.free a ha] at hstate
  cases hstate

theorem Carved.allocatedKeys (h : Carved slot result before after) (hfree : slot.state = .free) :
    (allocatedKeys after).Perm (result :: allocatedKeys before) := by
  obtain ⟨hpre, hpost⟩ := h
  simp only [allocatedKeys_append, hpre.allocatedKeys, allocatedKeys_cons_of_free hfree, List.nil_append,
    allocatedKeys_cons_of_allocated, hpost.allocatedKeys, List.append_assoc, List.cons_append]
  exact List.perm_middle

theorem Merged.allocatedKeys_of_allocated (h : Merged slot before after) (hstate : slot.state = .allocated) :
    (allocatedKeys before).Perm (slot.key :: allocatedKeys after) := by
  obtain ⟨hleft, hright, _, _⟩ := h
  simp only [allocatedKeys_append, hleft.allocatedKeys, allocatedKeys_cons_of_allocated hstate, List.append_nil,
    allocatedKeys_cons_of_free, hright.allocatedKeys, List.nil_append]
  exact List.perm_middle

theorem Merged.allocatedKeys_of_free (h : Merged slot before after) (hstate : slot.state = .free) :
    allocatedKeys after = allocatedKeys before := by
  obtain ⟨hleft, hright, _, _⟩ := h
  simp [hleft.allocatedKeys, hright.allocatedKeys, allocatedKeys_cons_of_free, hstate]

/-! ## The allocator and its tree -/

namespace AddressAllocator

variable {a : AddressAllocator} {t' : InnerNode}

theorem new_eq_ok {base size : Nat} (h : AddressAllocator.new base size = .ok a) :
    a.addressSpace.start = base ∧ a.addressSpace.last + 1 = base + size ∧
      a.tree = .node ⟨a.addressSpace, .free⟩ .nil .nil 1 := by
  obtain ⟨less, hless, h⟩ := Except.bind_eq_ok h
  obtain ⟨last, hlast, h⟩ := Except.bind_eq_ok h
  obtain ⟨range, hrange, h⟩ := Except.bind_eq_ok h
  cases h
  obtain ⟨hstart, hend⟩ := RangeInclusive.new_eq_ok hrange
  simp only [checkedAdd, checkedSub] at hless hlast
  split at hless <;> simp at hless
  split at hlast <;> simp at hlast
  exact ⟨hstart, by simp only; omega, rfl⟩

theorem allocate_eq {size alignment : Nat} {policy : AllocPolicy} {c : Constraint} {answer : Except Failure RangeInclusive}
    (hnew : Constraint.new size alignment policy = .ok c)
    (hexec : TreeM.exec (IntervalTree.allocate c) a.tree = (answer, t')) :
    a.allocate size alignment policy = (answer, { a with tree := t' }) := by
  have hrun : (IntervalTree.allocate c).run.run a.tree = (answer, t') := hexec
  rw [allocate, hnew]
  simp only [hrun]

theorem free_eq {answer : Except Failure Unit} (hexec : TreeM.exec (IntervalTree.free key) a.tree = (answer, t')) :
    a.free key = (answer, { a with tree := t' }) := by
  have hrun : (IntervalTree.free key).run.run a.tree = (answer, t') := hexec
  rw [free, hrun]

end AddressAllocator

/-- A request can be served at the address, from one free slot. -/
def Client.Serves (s : Client) (c : Constraint) (a : Nat) : Prop := ∃ slot ∈ s.allocator.tree.toList, slot.Fits c a

/-! ## The invariant -/

/-- After `n` operations on an allocator of `space`. -/
structure Ledger (space : RangeInclusive) (n : Nat) (s : Client) : Prop where
  balanced : s.allocator.tree.Balanced
  tiling : Tiling space.start s.allocator.tree.toList (space.last + 1)
  live : s.live.Perm (allocatedKeys s.allocator.tree.toList)
  length_le : s.allocator.tree.toList.length ≤ 2 * n + 1

/-- So many operations leave the tree lower than its limit. -/
def maxActions : Nat := 16475640047

namespace Ledger

variable {space range : RangeInclusive} {n : Nat} {s s' : Client} {size alignment : UInt64} {policy : AllocPolicy}

theorem wellFormed (h : Ledger space n s) : WellFormed s.allocator.tree := ⟨h.balanced, h.tiling.ordered⟩

theorem ne_nil (h : Ledger space n s) : s.allocator.tree ≠ .nil := by
  intro hnil
  have htiling := h.tiling
  have hle := space.le
  simp only [hnil, Avl.toList_nil, tiling_nil] at htiling
  omega

theorem room (h : Ledger space n s) (hn : n ≤ maxActions) : s.allocator.tree.toList.length + 1 ≤ maxSlots := by
  have hlen := h.length_le
  simp only [maxActions] at hn
  simp only [maxSlots]
  omega

theorem init {a : AddressAllocator} {base size : Nat} (h : AddressAllocator.new base size = .ok a) :
    Ledger a.addressSpace 0 ⟨a, []⟩ := by
  obtain ⟨_, _, htree⟩ := AddressAllocator.new_eq_ok h
  constructor
  · simp [htree, Avl.Balanced, Avl.height]
  · simp [htree]
  · simp [htree, allocatedKeys]
  · simp [htree]

/-- What an allocation does: it fails and leaves everything as it is, or it carves a free slot. -/
theorem allocate_cases (h : Ledger space n s) (hn : n ≤ maxActions)
    (hsound : (AllocAct.allocate size alignment policy).Sound s) :
    (∃ e, s.allocator.allocate size.toNat alignment.toNat policy = (.error (.error e), s.allocator)) ∨
      ∃ slot result t', s.allocator.allocate size.toNat alignment.toNat policy = (.ok result, { s.allocator with tree := t' }) ∧
        Slot.Fits slot ⟨size.toNat, alignment.toNat, policy⟩ result.start ∧ result.last + 1 = result.start + size.toNat ∧
        t'.Balanced ∧ Carved slot result s.allocator.tree.toList t'.toList := by
  cases hnew : Constraint.new size.toNat alignment.toNat policy with
  | error e =>
      left
      exact ⟨e, by rw [AddressAllocator.allocate, hnew]⟩
  | ok c =>
      obtain ⟨hc, rfl⟩ := Constraint.new_eq_ok alignment.toNat_lt hnew
      cases hfind : s.allocator.tree.findCandidate ⟨size.toNat, alignment.toNat, policy⟩ with
      | error e =>
          exact .inl ⟨e, AddressAllocator.allocate_eq hnew (WellFormed.exec_allocate_error hfind h.ne_nil)⟩
      | ok found =>
          obtain ⟨slot, range⟩ := found
          obtain ⟨hmem, hstart, hdvd, hroom, hfree⟩ := findCandidate_eq_ok h.wellFormed.ordered hc hfind
          by_cases hend : range.start + size.toNat < 2 ^ 64
          · -- the candidate is free, also for an exact match
            have hstate : slot.state = .free := by
              rcases hfree with hfree | ⟨start, hexact⟩
              · exact hfree
              · simp only at hexact
                subst hexact
                have hmatch := (exactMatch_eq_ok h.wellFormed.ordered hfind).2
                have hpos := hc.size_pos
                exact hsound slot hmem ⟨by omega, by simp only at hroom hpos; omega⟩
            obtain ⟨t', result, hexec, hresult, hlast, hb, hcarved⟩ :=
              h.wellFormed.exec_allocate h.tiling (h.room hn) hc hfind hend fun _ _ => hstate
            refine .inr ⟨slot, result, t', AddressAllocator.allocate_eq hnew hexec, ?_, ?_, hb, hcarved⟩
            · rw [hresult]
              exact ⟨hstate, hstart, hdvd, hroom⟩
            · rw [hlast, hresult]
          · have hexec := WellFormed.exec_allocate_overflow hfind hmem (Nat.le_of_not_lt hend)
            exact .inl ⟨.overflow, AddressAllocator.allocate_eq hnew hexec⟩

/-- What freeing does: there is no such slot, or the slot is merged with its free neighbours. -/
theorem free_cases (h : Ledger space n s) (hn : n ≤ maxActions) (hsound : (AllocAct.free key).Sound s) :
    (∀ a ∈ s.allocator.tree.toList, a.key ≠ key) ∧
        s.allocator.free key = (.error (.error .resourceNotAvailable), s.allocator) ∨
      ∃ slot ∈ s.allocator.tree.toList, slot.key = key ∧ ∃ t', s.allocator.free key = (.ok (), { s.allocator with tree := t' }) ∧
        t'.Balanced ∧ Merged slot s.allocator.tree.toList t'.toList := by
  by_cases hpresent : ∃ slot ∈ s.allocator.tree.toList, slot.key = key
  · obtain ⟨slot, hmem, rfl⟩ := hpresent
    obtain ⟨hone, htwo⟩ := hsound slot hmem rfl
    have hall := space.notAll
    have hlt := space.lt
    have hroom := h.room hn
    obtain ⟨t', hexec, hb, hmerged⟩ := h.wellFormed.exec_free h.tiling (by omega) (by omega) (by omega) hmem hone htwo
    exact .inr ⟨slot, hmem, rfl, t', AddressAllocator.free_eq hexec, hb, hmerged⟩
  · have habsent : ∀ a ∈ s.allocator.tree.toList, a.key ≠ key := fun a ha hkey => hpresent ⟨a, ha, hkey⟩
    exact .inl ⟨habsent, AddressAllocator.free_eq (h.wellFormed.exec_free_absent h.ne_nil habsent)⟩

/-- An operation as the clients see it. -/
theorem step_cases (h : Ledger space n s) (hn : n ≤ maxActions) {act : AllocAct} (hsound : act.Sound s) :
    s.step act = some s ∨
      (∃ size alignment policy slot result t', act = .allocate size alignment policy ∧
        s.step act = some ⟨{ s.allocator with tree := t' }, result :: s.live⟩ ∧
        Slot.Fits slot ⟨size.toNat, alignment.toNat, policy⟩ result.start ∧
        result.last + 1 = result.start + size.toNat ∧ t'.Balanced ∧ Carved slot result s.allocator.tree.toList t'.toList) ∨
      ∃ slot t', slot ∈ s.allocator.tree.toList ∧ act = .free slot.key ∧
        s.step act = some ⟨{ s.allocator with tree := t' }, s.live.erase slot.key⟩ ∧ t'.Balanced ∧
        Merged slot s.allocator.tree.toList t'.toList := by
  cases act with
  | allocate size alignment policy =>
      rcases h.allocate_cases hn hsound with ⟨e, he⟩ | ⟨slot, result, t', hok, hrest⟩
      · left
        simp [Client.step, he]
      · exact .inr (.inl ⟨size, alignment, policy, slot, result, t', rfl, by simp [Client.step, hok], hrest⟩)
  | free key =>
      rcases h.free_cases hn hsound with ⟨_, he⟩ | ⟨slot, hmem, rfl, t', hok, hrest⟩
      · left
        simp [Client.step, he]
      · exact .inr (.inr ⟨slot, t', hmem, rfl, by simp [Client.step, hok], hrest⟩)

theorem carve {t' : InnerNode} (h : Ledger space n s) (hfree : slot.state = .free) (hb : t'.Balanced)
    (hcarved : Carved slot result s.allocator.tree.toList t'.toList) :
    Ledger space (n + 1) ⟨{ s.allocator with tree := t' }, result :: s.live⟩ := by
  refine ⟨hb, hcarved.tiling h.tiling, ?_, ?_⟩
  · exact (h.live.cons result).trans (hcarved.allocatedKeys hfree).symm
  · have hlen := hcarved.length_le
    have hlen' := h.length_le
    simp only
    omega

theorem merge {t' : InnerNode} (h : Ledger space n s) (hmem : slot ∈ s.allocator.tree.toList) (hb : t'.Balanced)
    (hmerged : Merged slot s.allocator.tree.toList t'.toList) :
    Ledger space (n + 1) ⟨{ s.allocator with tree := t' }, s.live.erase slot.key⟩ := by
  refine ⟨hb, hmerged.tiling h.tiling, ?_, ?_⟩
  · refine (h.live.erase slot.key).trans ?_
    cases hstate : slot.state with
    | allocated =>
        have hkeys := (hmerged.allocatedKeys_of_allocated hstate).erase slot.key
        rw [List.erase_cons_head] at hkeys
        exact hkeys
    | free =>
        -- the range of a free slot is not held by anyone
        have hnot : slot.key ∉ allocatedKeys s.allocator.tree.toList := by
          intro hkey
          have heq := h.wellFormed.ordered.eq_of_key hmem (mem_allocatedKeys.mp hkey) rfl
          rw [heq] at hstate
          cases hstate
        rw [List.erase_of_not_mem hnot, hmerged.allocatedKeys_of_free hstate]
  · have hlen := hmerged.length_le
    have hlen' := h.length_le
    simp only
    omega

theorem step (h : Ledger space n s) (hn : n ≤ maxActions) {act : AllocAct} (hsound : act.Sound s)
    (hstep : s.step act = some s') : Ledger space (n + 1) s' := by
  rcases h.step_cases hn hsound with hs | ⟨_, _, _, slot, result, t', _, hs, hfits, _, hb, hcarved⟩ |
    ⟨slot, t', hmem, _, hs, hb, hmerged⟩
  · obtain rfl := Option.some.inj (hs.symm.trans hstep)
    exact ⟨h.balanced, h.tiling, h.live, by have := h.length_le; omega⟩
  · obtain rfl := Option.some.inj (hs.symm.trans hstep)
    exact h.carve hfits.free hb hcarved
  · obtain rfl := Option.some.inj (hs.symm.trans hstep)
    exact h.merge hmem hb hmerged

theorem run {a : AddressAllocator} {base size : Nat} {acts : List AllocAct}
    (hnew : AddressAllocator.new base size = .ok a) (hrun : (allocations a).run acts = some s)
    (hlen : acts.length ≤ maxActions) (hsound : ∀ s act, (allocations a).Takes acts s act → act.Sound s) :
    Ledger a.addressSpace acts.length s := by
  refine Machine.run_induction_of_takes
    (P := fun acts s => acts.length ≤ maxActions → Ledger a.addressSpace acts.length s)
    (fun _ => init hnew) ?_ hrun hsound hlen
  intro acts s act s' ih hsound hs hlen
  simp only [List.length_append, List.length_singleton] at hlen ⊢
  exact (ih (by omega)).step (by omega) hsound hs

theorem mem_live (h : Ledger space n s) : key ∈ s.live ↔ ⟨key, .allocated⟩ ∈ s.allocator.tree.toList :=
  h.live.mem_iff.trans mem_allocatedKeys

theorem live_disjoint (h : Ledger space n s) : s.live.Pairwise fun r r' => r.overlaps r' = false := by
  rw [h.live.pairwise_iff]
  · rw [allocatedKeys, List.pairwise_map]
    refine (h.tiling.ordered.sublist List.filter_sublist).imp fun hbefore => ?_
    exact RangeInclusive.overlaps_eq_false_iff.mpr (.inl hbefore)
  · intro r r' h
    rw [RangeInclusive.overlaps_eq_false_iff] at h ⊢
    exact h.symm

theorem live_nodup (h : Ledger space n s) : s.live.Nodup := by
  refine h.live_disjoint.imp ?_
  rintro r _ hdisjoint rfl
  have hle := r.le
  rw [RangeInclusive.overlaps_eq_false_iff] at hdisjoint
  omega

/-- The answer to a request from the left. -/
theorem allocate_first (h : Ledger space n s) (hn : n ≤ maxActions) (hsize : size ≠ 0)
    (hpow : isPowerOfTwo alignment.toNat = true) :
    (∃ result, (s.allocator.allocate size.toNat alignment.toNat .firstMatch).1 = .ok result ∧
        result.last + 1 = result.start + size.toNat ∧
        IsLeast {a | s.Serves ⟨size.toNat, alignment.toNat, .firstMatch⟩ a} result.start) ∨
      s.allocator.allocate size.toNat alignment.toNat .firstMatch = (.error (.error .resourceNotAvailable), s.allocator) ∧
        (∀ a, ¬s.Serves ⟨size.toNat, alignment.toNat, .firstMatch⟩ a) ∨
      s.allocator.allocate size.toNat alignment.toNat .firstMatch = (.error (.error .overflow), s.allocator) ∧
        IsLeast {a | s.Serves ⟨size.toNat, alignment.toNat, .firstMatch⟩ a} (2 ^ 64 - size.toNat) := by
  have hord := h.wellFormed.ordered
  have hpos : size.toNat ≠ 0 := fun he => hsize (UInt64.toNat_inj.mp he)
  have hne : alignment.toNat ≠ 0 := by
    intro he
    simp [he, isPowerOfTwo] at hpow
  have hnew : Constraint.new size.toNat alignment.toNat .firstMatch = .ok ⟨size.toNat, alignment.toNat, .firstMatch⟩ := by
    simp [Constraint.new, hpos, hpow, hne]
  obtain ⟨hc, _⟩ := Constraint.new_eq_ok alignment.toNat_lt hnew
  cases hfind : s.allocator.tree.findCandidate ⟨size.toNat, alignment.toNat, .firstMatch⟩ with
  | error e =>
      obtain ⟨rfl, hnone⟩ := firstMatch_eq_error hc rfl hfind
      refine .inr (.inl ⟨AddressAllocator.allocate_eq hnew (WellFormed.exec_allocate_error hfind h.ne_nil), ?_⟩)
      rintro a ⟨slot, hmem, hfits⟩
      exact hnone slot hmem a hfits
  | ok found =>
      obtain ⟨slot, range⟩ := found
      obtain ⟨hmem, hstart, hdvd, hroom, hfree⟩ := findCandidate_eq_ok hord hc hfind
      have hstate : slot.state = .free := hfree.resolve_right (by simp)
      have hleast : IsLeast {a | s.Serves ⟨size.toNat, alignment.toNat, .firstMatch⟩ a} range.start := by
        refine ⟨⟨slot, hmem, hstate, hstart, hdvd, hroom⟩, ?_⟩
        rintro a ⟨slot', hmem', hfits⟩
        exact firstMatch_lowest hord hc rfl hfind slot' hmem' a hfits
      by_cases hend : range.start + size.toNat < 2 ^ 64
      · obtain ⟨t', result, hexec, hresult, hlast, _⟩ :=
          h.wellFormed.exec_allocate h.tiling (h.room hn) hc hfind hend fun _ _ => hstate
        refine .inl ⟨result, by rw [AddressAllocator.allocate_eq hnew hexec], by rw [hlast, hresult], ?_⟩
        rw [hresult]
        exact hleast
      · have hexec := WellFormed.exec_allocate_overflow hfind hmem (Nat.le_of_not_lt hend)
        have hlt := slot.key.lt
        simp only at hroom
        refine .inr (.inr ⟨AddressAllocator.allocate_eq hnew hexec, ?_⟩)
        rw [show 2 ^ 64 - size.toNat = range.start by omega]
        exact hleast

end Ledger

end Rknpu.Pcie
