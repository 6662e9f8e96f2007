import Rknpu.Pcie.IntervalTree

/-!
# What the nodes of an interval tree hold

The slots of a tree from left to right lie one after the other. Each function on nodes is described by what it does to
that list, and balanced trees stay balanced.
-/

namespace Rknpu.Pcie

/-! ## Ranges -/

namespace RangeInclusive

variable {r other : RangeInclusive}

theorem cmp_eq_iff : r.cmp other = .eq ↔ r = other := by
  constructor
  · intro h
    obtain ⟨hstart, hlast⟩ := Ordering.then_eq_eq.mp h
    obtain ⟨s, e, _, _, _⟩ := r
    obtain ⟨s', e', _, _, _⟩ := other
    obtain rfl : s = s' := Nat.compare_eq_eq.mp hstart
    obtain rfl : e = e' := Nat.compare_eq_eq.mp hlast
    rfl
  · rintro rfl
    simp [cmp]

/-- A range that lies before another is less. -/
theorem cmp_of_before (h : r.last < other.start) : r.cmp other = .lt := by
  have hlt : r.start < other.start := lt_of_le_of_lt r.le h
  simp [cmp, Nat.compare_eq_lt.mpr hlt]

theorem cmp_of_after (h : other.last < r.start) : r.cmp other = .gt := by
  have hlt : other.start < r.start := lt_of_le_of_lt other.le h
  simp [cmp, Nat.compare_eq_gt.mpr hlt]

theorem overlaps_eq_false_iff : r.overlaps other = false ↔ r.last < other.start ∨ other.last < r.start := by
  have hr := r.le
  have ho := other.le
  simp only [overlaps, decide_eq_false_iff_not]
  omega

theorem contains_iff : r.contains other = true ↔ r.start ≤ other.start ∧ other.last ≤ r.last := by
  simp [contains]

theorem new_eq {start last : Nat} (hle : start ≤ last) (hlt : last < 2 ^ 64)
    (hall : ¬(start = 0 ∧ last = 2 ^ 64 - 1)) : new start last = .ok ⟨start, last, hle, hlt, hall⟩ :=
  dif_pos ⟨hle, hlt, hall⟩

theorem new_eq_ok {start last : Nat} (h : new start last = .ok r) : r.start = start ∧ r.last = last := by
  unfold new at h
  split at h
  · cases h
    exact ⟨rfl, rfl⟩
  · cases h

end RangeInclusive

/-! ## Slots in order -/

/-- A slot lies before another. -/
def Slot.Before (a b : Slot) : Prop := a.key.last < b.key.start

/-- The slots lie one after the other. -/
def Ordered (slots : List Slot) : Prop := slots.Pairwise Slot.Before

variable {slots xs ys : List Slot} {slot slot' : Slot} {l r t : InnerNode} {h : Nat} {key : RangeInclusive}
  {state : NodeState} {c : Constraint}

theorem ordered_node : Ordered (Avl.node slot l r h).toList ↔ Ordered l.toList ∧ Ordered r.toList ∧
    (∀ a ∈ l.toList, a.Before slot) ∧ (∀ b ∈ r.toList, slot.Before b) := by
  have htrans : ∀ {a b : Slot}, a.Before slot → slot.Before b → a.Before b := by
    intro a b hab hbc
    have hle := slot.key.le
    simp only [Slot.Before] at *
    omega
  simp only [Ordered, Avl.toList_node, List.pairwise_append, List.pairwise_cons, List.mem_cons]
  constructor
  · rintro ⟨hl, ⟨hslot, hr⟩, hlr⟩
    exact ⟨hl, hr, fun a ha => hlr a ha slot (.inl rfl), hslot⟩
  · rintro ⟨hl, hr, hleft, hright⟩
    refine ⟨hl, ⟨hright, hr⟩, ?_⟩
    rintro a ha b (rfl | hb)
    · exact hleft a ha
    · exact htrans (hleft a ha) (hright b hb)

theorem Ordered.before_or_before (hord : Ordered slots) (ha : slot ∈ slots) (hb : slot' ∈ slots) (hne : slot ≠ slot') :
    slot.Before slot' ∨ slot'.Before slot := by
  have : Std.Symm fun a b : Slot => a.Before b ∨ b.Before a := ⟨fun _ _ => Or.symm⟩
  have hboth : slots.Pairwise fun a b => a.Before b ∨ b.Before a := hord.imp Or.inl
  exact hboth.forall ha hb hne

/-- In an ordered list, the key of a slot says which slot it is. -/
theorem Ordered.eq_of_key (hord : Ordered slots) (ha : slot ∈ slots) (hb : slot' ∈ slots)
    (hkey : slot.key = slot'.key) : slot = slot' := by
  by_contra hne
  have hle := slot.key.le
  rcases hord.before_or_before ha hb hne with hab | hab <;> simp only [Slot.Before, ← hkey] at hab <;> omega

/-! ## Searching -/

namespace InnerNode

theorem search_eq_some_iff (hord : Ordered t.toList) : t.search key = some slot ↔ slot ∈ t.toList ∧ slot.key = key := by
  induction t with
  | nil => simp [search]
  | node a l r h ihl ihr =>
      obtain ⟨hl, hr, hleft, hright⟩ := ordered_node.mp hord
      have hkey := key.le
      simp only [search, Avl.toList_node, List.mem_append, List.mem_cons]
      cases hcmp : a.key.cmp key with
      | eq =>
          obtain rfl := RangeInclusive.cmp_eq_iff.mp hcmp
          constructor
          · intro he
            obtain rfl := Option.some.inj he
            exact ⟨.inr (.inl rfl), rfl⟩
          · rintro ⟨hmem, hk⟩
            exact congrArg some (hord.eq_of_key (by simp) (by simpa using hmem) hk.symm)
      | lt =>
          rw [ihr hr]
          constructor
          · rintro ⟨hmem, hk⟩
            exact ⟨.inr (.inr hmem), hk⟩
          · rintro ⟨hmem | rfl | hmem, rfl⟩
            · simp [RangeInclusive.cmp_of_after (hleft slot hmem)] at hcmp
            · simp [RangeInclusive.cmp_eq_iff.mpr rfl] at hcmp
            · exact ⟨hmem, rfl⟩
      | gt =>
          rw [ihl hl]
          constructor
          · rintro ⟨hmem, hk⟩
            exact ⟨.inl hmem, hk⟩
          · rintro ⟨hmem | rfl | hmem, rfl⟩
            · exact ⟨hmem, rfl⟩
            · simp [RangeInclusive.cmp_eq_iff.mpr rfl] at hcmp
            · simp [RangeInclusive.cmp_of_before (hright slot hmem)] at hcmp

theorem searchSuperset_eq_some_iff (hord : Ordered t.toList) :
    t.searchSuperset key = some slot ↔ slot ∈ t.toList ∧ slot.key.contains key := by
  induction t with
  | nil => simp [searchSuperset]
  | node a l r h ihl ihr =>
      obtain ⟨hl, hr, hleft, hright⟩ := ordered_node.mp hord
      have hkey := key.le
      have ha := a.key.le
      -- the sides that cannot hold the key
      have hnotLeft : slot ∈ l.toList → slot.key.contains key → key.last < a.key.start := by
        intro hmem hin
        have hbefore := hleft slot hmem
        simp only [Slot.Before, RangeInclusive.contains_iff] at hbefore hin
        omega
      have hnotRight : slot ∈ r.toList → slot.key.contains key → a.key.last < key.start := by
        intro hmem hin
        have hbefore := hright slot hmem
        simp only [Slot.Before, RangeInclusive.contains_iff] at hbefore hin
        omega
      simp only [searchSuperset, Avl.toList_node, List.mem_append, List.mem_cons]
      by_cases hroot : a.key.contains key
      · rw [if_pos hroot]
        have hroot' := RangeInclusive.contains_iff.mp hroot
        constructor
        · intro he
          obtain rfl := Option.some.inj he
          exact ⟨.inr (.inl rfl), hroot⟩
        · rintro ⟨hmem | rfl | hmem, hin⟩
          · have := hnotLeft hmem hin
            omega
          · rfl
          · have := hnotRight hmem hin
            omega
      · rw [if_neg hroot]
        split
        · rename_i hlt
          rw [ihl hl]
          constructor
          · rintro ⟨hmem, hin⟩
            exact ⟨.inl hmem, hin⟩
          · rintro ⟨hmem | rfl | hmem, hin⟩
            · exact ⟨hmem, hin⟩
            · exact absurd hin hroot
            · have := hnotRight hmem hin
              omega
        · rename_i hlt
          rw [ihr hr]
          constructor
          · rintro ⟨hmem, hin⟩
            exact ⟨.inr (.inr hmem), hin⟩
          · rintro ⟨hmem | rfl | hmem, hin⟩
            · exact absurd (hnotLeft hmem hin) hlt
            · exact absurd hin hroot
            · exact ⟨hmem, hin⟩

/-! ## Changing nodes -/

/-- A slot that overlaps none of the others finds its place. -/
theorem insert_spec (state : NodeState) (hb : t.Balanced) (hord : Ordered t.toList) (hheight : t.height < 50)
    (hfree : ∀ a ∈ t.toList, a.key.overlaps key = false) :
    ∃ t', t.insert key state = .ok t' ∧ t'.Balanced ∧ t.height ≤ t'.height ∧ t'.height ≤ t.height + 1 ∧
      Ordered t'.toList ∧ ∃ xs ys, t.toList = xs ++ ys ∧ t'.toList = xs ++ ⟨key, state⟩ :: ys := by
  induction t with
  | nil =>
      exact ⟨_, rfl, ⟨trivial, trivial, rfl, Nat.zero_le _, Nat.zero_le _⟩, Nat.zero_le _, Nat.le_refl _,
        List.pairwise_singleton _ _, [], [], rfl, rfl⟩
  | node a l r h ihl ihr =>
      obtain ⟨hl, hr, hleft, hright⟩ := ordered_node.mp hord
      have hroot : a.key.overlaps key = false := hfree a (by simp)
      have hh : ¬50 < h + 1 := by
        simp only [Avl.height_node] at hheight
        omega
      obtain ⟨hbl, hbr, heq, _, _⟩ := id hb
      simp only [Avl.height_node] at hheight
      rcases RangeInclusive.overlaps_eq_false_iff.mp hroot with hbefore | hafter
      · obtain ⟨r', hins, hbr', hlow, hhigh, hord', xs, ys, hxs, hys⟩ :=
          ihr hbr hr (by omega) fun b hb => hfree b (by simp [hb])
        obtain ⟨t', ht', hbt', hlist, htlow, hthigh⟩ := Avl.repair_grow_right hb hbr' hlow hhigh
        refine ⟨t', ?_, hbt', htlow, hthigh, ?_, l.toList ++ a :: xs, ys, by simp [hxs], by simp [hlist, hys]⟩
        · rw [insert, if_neg hh, if_neg (by simp [hroot]), RangeInclusive.cmp_of_before hbefore]
          simp only [hins]
          exact congrArg orPanic ht'
        · have hnode : Ordered (Avl.node a l r' h).toList := by
            refine ordered_node.mpr ⟨hl, hord', hleft, fun b hb => ?_⟩
            rw [hys] at hb
            rcases List.mem_append.mp hb with hb | hb
            · exact hright b (by simp [hxs, hb])
            · rcases List.mem_cons.mp hb with rfl | hb
              · exact hbefore
              · exact hright b (by simp [hxs, hb])
          rw [hlist]
          exact hnode
      · obtain ⟨l', hins, hbl', hlow, hhigh, hord', xs, ys, hxs, hys⟩ :=
          ihl hbl hl (by omega) fun b hb => hfree b (by simp [hb])
        obtain ⟨t', ht', hbt', hlist, htlow, hthigh⟩ := Avl.repair_grow_left hb hbl' hlow hhigh
        refine ⟨t', ?_, hbt', htlow, hthigh, ?_, xs, ys ++ a :: r.toList, by simp [hxs], by simp [hlist, hys]⟩
        · rw [insert, if_neg hh, if_neg (by simp [hroot]), RangeInclusive.cmp_of_after hafter]
          simp only [hins]
          exact congrArg orPanic ht'
        · have hnode : Ordered (Avl.node a l' r h).toList := by
            refine ordered_node.mpr ⟨hord', hr, fun b hb => ?_, hright⟩
            rw [hys] at hb
            rcases List.mem_append.mp hb with hb | hb
            · exact hleft b (by simp [hxs, hb])
            · rcases List.mem_cons.mp hb with rfl | hb
              · exact hafter
              · exact hleft b (by simp [hxs, hb])
          rw [hlist]
          exact hnode

/-- The slot with the key goes. -/
theorem delete_spec (hb : t.Balanced) (hord : Ordered t.toList) (hmem : slot ∈ t.toList) :
    ∃ t', t.delete slot.key = some t' ∧ t'.Balanced ∧ t.height ≤ t'.height + 1 ∧ t'.height ≤ t.height ∧
      ∃ xs ys, t.toList = xs ++ slot :: ys ∧ t'.toList = xs ++ ys := by
  induction t with
  | nil => simp at hmem
  | node a l r h ihl ihr =>
      obtain ⟨hl, hr, hleft, hright⟩ := ordered_node.mp hord
      have hmem' := hmem
      simp only [Avl.toList_node, List.mem_append, List.mem_cons] at hmem'
      rcases hmem' with hin | rfl | hin
      · obtain ⟨l', hdel, hbl', hlow, hhigh, xs, ys, hxs, hys⟩ := ihl hb.1 hl hin
        obtain ⟨t', ht', hbt', hlist, htlow, hthigh⟩ := Avl.repair_shrink_left hb hbl' hlow hhigh a
        refine ⟨t', ?_, hbt', htlow, hthigh, xs, ys ++ a :: r.toList, by simp [hxs], by simp [hlist, hys]⟩
        cases l with
        | nil => simp at hin
        | node _ _ _ _ =>
            have hcmp : a.key.cmp slot.key = .gt := RangeInclusive.cmp_of_after (hleft slot hin)
            unfold delete
            simp only [hcmp, hdel]
            exact ht'
      · obtain ⟨t', ht', hbt', hlist, htlow, hthigh⟩ := Avl.deleteRoot_spec hb
        refine ⟨t', ?_, hbt', htlow, hthigh, l.toList, r.toList, rfl, hlist⟩
        have hcmp : slot.key.cmp slot.key = .eq := RangeInclusive.cmp_eq_iff.mpr rfl
        unfold delete
        simp only [hcmp]
        exact ht'
      · obtain ⟨r', hdel, hbr', hlow, hhigh, xs, ys, hxs, hys⟩ := ihr hb.2.1 hr hin
        obtain ⟨t', ht', hbt', hlist, htlow, hthigh⟩ := Avl.repair_shrink_right hb hbr' hlow hhigh a
        refine ⟨t', ?_, hbt', htlow, hthigh, l.toList ++ a :: xs, ys, by simp [hxs], by simp [hlist, hys]⟩
        cases r with
        | nil => simp at hin
        | node _ _ _ _ =>
            have hcmp : a.key.cmp slot.key = .lt := RangeInclusive.cmp_of_before (hright slot hin)
            unfold delete
            simp only [hcmp, hdel]
            exact ht'

/-- A free slot is marked, and the tree keeps its shape. -/
theorem markAsAllocated_spec (hb : t.Balanced) (hord : Ordered t.toList) (hmem : slot ∈ t.toList)
    (hstate : slot.state = .free) :
    ∃ t', t.markAsAllocated slot.key = .ok t' ∧ t'.Balanced ∧ t'.height = t.height ∧
      ∃ xs ys, t.toList = xs ++ slot :: ys ∧ t'.toList = xs ++ { slot with state := .allocated } :: ys := by
  induction t with
  | nil => simp at hmem
  | node a l r h ihl ihr =>
      obtain ⟨hl, hr, hleft, hright⟩ := ordered_node.mp hord
      obtain ⟨hbl, hbr, heq, hle, hle'⟩ := hb
      have hmem' := hmem
      simp only [Avl.toList_node, List.mem_append, List.mem_cons] at hmem'
      rcases hmem' with hin | rfl | hin
      · obtain ⟨l', hmark, hbl', hheight, xs, ys, hxs, hys⟩ := ihl hbl hl hin
        refine ⟨.node a l' r h, ?_, ⟨hbl', hbr, by rw [hheight, heq], by rw [hheight]; exact hle,
          by rw [hheight]; exact hle'⟩, rfl, xs, ys ++ a :: r.toList, by simp [hxs], by simp [hys]⟩
        rw [markAsAllocated, RangeInclusive.cmp_of_after (hleft slot hin)]
        simp only [hmark]
        rfl
      · refine ⟨.node { slot with state := .allocated } l r h, ?_, ⟨hbl, hbr, heq, hle, hle'⟩, rfl, l.toList, r.toList,
          rfl, rfl⟩
        rw [markAsAllocated, RangeInclusive.cmp_eq_iff.mpr rfl]
        simp [hstate]
      · obtain ⟨r', hmark, hbr', hheight, xs, ys, hxs, hys⟩ := ihr hbr hr hin
        refine ⟨.node a l r' h, ?_, ⟨hbl, hbr', by rw [hheight, heq], by rw [hheight]; exact hle,
          by rw [hheight]; exact hle'⟩, rfl, l.toList ++ a :: xs, ys, by simp [hxs], by simp [hys]⟩
        rw [markAsAllocated, RangeInclusive.cmp_of_before (hright slot hin)]
        simp only [hmark]
        rfl

/-! ## Candidates -/

/-- What a slot offers to a request. -/
def offer (c : Constraint) (slot : Slot) : Option (Slot × RangeInclusive) :=
  (slot.checkConstraint c).toOption.map fun range => (slot, range)

/-- The first slot that has something to offer, from the left. -/
theorem firstMatch_eq (t : InnerNode) (c : Constraint) : t.firstMatch c = t.toList.findSome? (offer c) := by
  induction t with
  | nil => rfl
  | node a l r h ihl ihr =>
      rw [firstMatch, ihl, ihr, Avl.toList_node, List.findSome?_append, List.findSome?_cons]
      cases ho : offer c a with
      | none => simp [show (a.checkConstraint c).toOption.map (fun range => (a, range)) = none from ho]
      | some x => simp [show (a.checkConstraint c).toOption.map (fun range => (a, range)) = some x from ho]

/-- The first slot that has something to offer, from the right. -/
theorem lastMatch_eq (t : InnerNode) (c : Constraint) : t.lastMatch c = t.toList.reverse.findSome? (offer c) := by
  induction t with
  | nil => rfl
  | node a l r h ihl ihr =>
      rw [lastMatch, ihl, ihr, Avl.toList_node, List.reverse_append, List.reverse_cons, List.append_assoc,
        List.findSome?_append, List.singleton_append, List.findSome?_cons]
      cases ho : offer c a with
      | none => simp [show (a.checkConstraint c).toOption.map (fun range => (a, range)) = none from ho]
      | some x => simp [show (a.checkConstraint c).toOption.map (fun range => (a, range)) = some x from ho]

end InnerNode

end Rknpu.Pcie
