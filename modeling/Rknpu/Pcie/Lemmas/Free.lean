import Rknpu.Pcie.Lemmas.Allocate

/-!
# Giving a slot back

A freed slot takes in the free slots next to it. They are looked up by two addresses, so a neighbour of one address stays
on its own.
-/

namespace Rknpu.Pcie

/-- The slots before and after one of them was freed. -/
inductive Merged (slot : Slot) : List Slot → List Slot → Prop where
  | intro {xs ys left right : List Slot} {range : RangeInclusive} (hleft : Leftover range.start slot.key.start left)
      (hright : Leftover (slot.key.last + 1) (range.last + 1) right)
      (hbefore : left = [] → ∀ a ∈ xs.getLast?, a.state = .free → a.key.len = 1)
      (hafter : right = [] → ∀ a ∈ ys.head?, a.state = .free → a.key.len = 1) :
      Merged slot (xs ++ left ++ slot :: (right ++ ys)) (xs ++ ⟨range, .free⟩ :: ys)

variable {xs ys left right : List Slot} {slot a : Slot} {lo hi : Nat} {key range : RangeInclusive} {t : InnerNode}
  {state : NodeState}

/-- Two ranges that the same slots tile up to the same end. -/
theorem Tiling.left_unique {lo' : Nat} (h : Tiling lo xs hi) (h' : Tiling lo' xs hi) : lo = lo' := by
  cases xs with
  | nil =>
      rw [tiling_nil] at h h'
      exact h.trans h'.symm
  | cons a xs => exact (tiling_cons.mp h).1.symm.trans (tiling_cons.mp h').1

theorem Tiling.right_unique {hi' : Nat} (h : Tiling lo xs hi) (h' : Tiling lo xs hi') : hi = hi' := by
  induction xs generalizing lo with
  | nil =>
      rw [tiling_nil] at h h'
      exact h.symm.trans h'
  | cons a xs ih => exact ih (tiling_cons.mp h).2 (tiling_cons.mp h').2

/-! ## What freeing keeps -/

namespace Merged

variable {before after : List Slot}

theorem tiling (h : Merged slot before after) (htiling : Tiling lo before hi) : Tiling lo after hi := by
  obtain ⟨hleft, hright, _, _⟩ := h
  obtain ⟨hxs, hys⟩ := tiling_middle.mp htiling
  obtain ⟨mid, hstart, hmid⟩ := tiling_append.mp hxs
  obtain ⟨mid', hmid', hend⟩ := tiling_append.mp hys
  rw [hmid.left_unique hleft.tiling] at hstart
  rw [hmid'.right_unique hright.tiling] at hend
  exact tiling_middle.mpr ⟨hstart, hend⟩

theorem length_le (h : Merged slot before after) : after.length ≤ before.length := by
  obtain ⟨_, _, _, _⟩ := h
  simp only [List.length_append, List.length_cons]
  omega

/-- The slot is part of a free one afterwards. -/
theorem exists_free (h : Merged slot before after) :
    ∃ a ∈ after, a.state = .free ∧ a.key.start ≤ slot.key.start ∧ slot.key.last ≤ a.key.last := by
  obtain ⟨hleft, hright, _, _⟩ := h
  have hstart := Block.Tiles.le hleft.tiling
  have hlast := Block.Tiles.le hright.tiling
  exact ⟨_, List.mem_append_right _ List.mem_cons_self, rfl, hstart, by simp only; omega⟩

end Merged

namespace WellFormed

open TreeM

theorem exec_delete_middle (h : WellFormed t) (hlist : t.toList = xs ++ slot :: ys) :
    ∃ t', exec (IntervalTree.delete slot.key) t = (.ok (), t') ∧ WellFormed t' ∧ t'.toList = xs ++ ys := by
  obtain ⟨t', hexec, hwf, hperm, _⟩ := h.exec_delete (show slot ∈ t.toList by simp [hlist])
  rw [hlist] at hperm
  have hord : Ordered (xs ++ ys) := by
    have hsub : (xs ++ ys).Sublist (xs ++ slot :: ys) := (List.Sublist.refl xs).append (List.sublist_cons_self slot ys)
    exact (hlist ▸ h.ordered).sublist hsub
  exact ⟨t', hexec, hwf, hwf.ordered.eq_of_perm hord ((List.perm_middle.symm.trans hperm).cons_inv).symm⟩

theorem exec_insert_middle (h : WellFormed t) (hlen : t.toList.length ≤ maxSlots) (hlist : t.toList = xs ++ ys)
    (hord : Ordered (xs ++ ⟨key, state⟩ :: ys)) :
    ∃ t', exec (IntervalTree.insert key state) t = (.ok (), t') ∧ WellFormed t' ∧
      t'.toList = xs ++ ⟨key, state⟩ :: ys := by
  have hfree : ∀ a ∈ t.toList, a.key.overlaps key = false := by
    rw [hlist]
    exact hord.overlaps_middle le_rfl le_rfl
  obtain ⟨t', hexec, hwf, hperm⟩ := h.exec_insert hlen hfree state
  rw [hlist] at hperm
  exact ⟨t', hexec, hwf, hwf.ordered.eq_of_perm hord (hperm.trans List.perm_middle.symm)⟩

/-! ## Looking for neighbours -/

theorem searchSuperset_eq_none (h : WellFormed t) (hnone : ∀ a ∈ t.toList, ¬(a.key.start ≤ key.start ∧ key.last ≤ a.key.last)) :
    t.searchSuperset key = none := by
  rw [Option.eq_none_iff_forall_ne_some]
  intro a ha
  obtain ⟨hmem, hcontains⟩ := (InnerNode.searchSuperset_eq_some_iff h.ordered).mp ha
  exact hnone a hmem (RangeInclusive.contains_iff.mp hcontains)

theorem searchSuperset_eq_some (h : WellFormed t) (hmem : a ∈ t.toList) (hstart : a.key.start ≤ key.start)
    (hlast : key.last ≤ a.key.last) : t.searchSuperset key = some a :=
  (InnerNode.searchSuperset_eq_some_iff h.ordered).mpr ⟨hmem, RangeInclusive.contains_iff.mpr ⟨hstart, hlast⟩⟩

theorem exec_mergeLeft (h : WellFormed t) (hlist : t.toList = xs ++ ys) (hxs : Tiling lo xs key.start)
    (hys : ∀ b ∈ ys, key.last < b.key.start) (hone : key.start ≠ 1) (hall : lo = 0 → key.last < 2 ^ 64 - 1) :
    ∃ range xs' left, exec (IntervalTree.mergeLeft key) t = (.ok range, t) ∧ xs = xs' ++ left ∧
      range.last = key.last ∧ Leftover range.start key.start left ∧
      (left = [] → ∀ a ∈ xs'.getLast?, a.state = .free → a.key.len = 1) := by
  have hle := key.le
  have hlt := key.lt
  unfold IntervalTree.mergeLeft
  split
  · rename_i hpos
    have hlow : checkedSub key.start 2 = some (key.start - 2) := if_pos (by omega)
    have hhigh : checkedSub key.start 1 = some (key.start - 1) := if_pos (by omega)
    obtain ⟨near, hnear, hnearStart, hnearLast⟩ :
        ∃ near, RangeInclusive.new (key.start - 2) (key.start - 1) = .ok near ∧
          near.start = key.start - 2 ∧ near.last = key.start - 1 :=
      ⟨_, RangeInclusive.new_eq (by omega) (by omega) (by omega), rfl, rfl⟩
    rw [hlow, exec_bind_ok (exec_orError_some _ _ _), hhigh, exec_bind_ok (exec_orError_some _ _ _), hnear,
      exec_bind_ok (exec_ofResult_ok _ _), exec_bind_ok (exec_get t)]
    rcases List.eq_nil_or_concat xs with rfl | ⟨xs', a, rfl⟩
    · have hnone : t.searchSuperset near = none := by
        refine h.searchSuperset_eq_none fun b hb => ?_
        have := hys b (by simpa [hlist] using hb)
        omega
      simp only [hnone]
      exact ⟨key, [], [], rfl, rfl, rfl, Leftover.nil _, by simp⟩
    · rw [List.concat_eq_append] at hxs hlist ⊢
      obtain ⟨hrest, hend⟩ := tiling_middle.mp hxs
      rw [tiling_nil] at hend
      have hakey := a.key.le
      have hbefore : ∀ b ∈ xs', b.key.last < a.key.start := fun b hb => (hrest.mem_bounds hb).2
      have hlo := Block.Tiles.le hrest
      by_cases hshort : a.key.start < key.start - 1
      · have hsome : t.searchSuperset near = some a := by
          refine h.searchSuperset_eq_some (by simp [hlist]) ?_ ?_ <;> omega
        simp only [hsome]
        split
        · rename_i hstate
          rw [RangeInclusive.new_eq (show a.key.start ≤ key.last by omega) hlt (by omega)]
          refine ⟨_, xs', [a], rfl, rfl, rfl, ⟨?_, by simp [hstate], by simp⟩, by simp⟩
          simp [hend]
        · rename_i hstate
          refine ⟨key, xs' ++ [a], [], rfl, by simp, rfl, Leftover.nil _, ?_⟩
          intro _ b hb hfree
          obtain rfl : b = a := by simpa using hb.symm
          exact absurd hfree hstate
      · have hnone : t.searchSuperset near = none := by
          refine h.searchSuperset_eq_none fun b hb => ?_
          simp only [hlist, List.mem_append, List.mem_singleton] at hb
          rcases hb with (hb | rfl) | hb
          · have := hbefore b hb
            omega
          · omega
          · have := hys b hb
            omega
        simp only [hnone]
        refine ⟨key, xs' ++ [a], [], rfl, by simp, rfl, Leftover.nil _, ?_⟩
        intro _ b hb _
        obtain rfl : b = a := by simpa using hb.symm
        simp only [RangeInclusive.len]
        omega
  · rename_i hzero
    refine ⟨key, xs, [], rfl, by simp, rfl, Leftover.nil _, ?_⟩
    intro _ b hb _
    have := (hxs.mem_bounds (List.mem_of_getLast? hb)).2
    omega

theorem exec_mergeRight (h : WellFormed t) (hlist : t.toList = xs ++ ys) (hys : Tiling (key.last + 1) ys hi)
    (hxs : ∀ a ∈ xs, a.key.last ≤ key.last) (hone : key.last ≠ 2 ^ 64 - 2) (hall : hi = 2 ^ 64 → 0 < key.start) :
    ∃ range right ys', exec (IntervalTree.mergeRight key) t = (.ok range, t) ∧ ys = right ++ ys' ∧
      range.start = key.start ∧ Leftover (key.last + 1) (range.last + 1) right ∧
      (right = [] → ∀ a ∈ ys'.head?, a.state = .free → a.key.len = 1) := by
  have hle := key.le
  have hlt := key.lt
  unfold IntervalTree.mergeRight
  split
  · rename_i hpos
    have hlow : checkedAdd key.last 1 = some (key.last + 1) := if_pos (by omega)
    have hhigh : checkedAdd key.last 2 = some (key.last + 2) := if_pos (by omega)
    obtain ⟨near, hnear, hnearStart, hnearLast⟩ :
        ∃ near, RangeInclusive.new (key.last + 1) (key.last + 2) = .ok near ∧
          near.start = key.last + 1 ∧ near.last = key.last + 2 :=
      ⟨_, RangeInclusive.new_eq (by omega) (by omega) (by omega), rfl, rfl⟩
    rw [hlow, exec_bind_ok (exec_orError_some _ _ _), hhigh, exec_bind_ok (exec_orError_some _ _ _), hnear,
      exec_bind_ok (exec_ofResult_ok _ _), exec_bind_ok (exec_get t)]
    cases ys with
    | nil =>
        have hnone : t.searchSuperset near = none := by
          refine h.searchSuperset_eq_none fun b hb => ?_
          have := hxs b (by simpa [hlist] using hb)
          omega
        simp only [hnone]
        exact ⟨key, [], [], rfl, rfl, rfl, Leftover.nil _, by simp⟩
    | cons a ys =>
        obtain ⟨hstart, hrest⟩ := tiling_cons.mp hys
        have hakey := a.key.le
        have halt := a.key.lt
        have hbehind : ∀ b ∈ ys, a.key.last < b.key.start := fun b hb => (hrest.mem_bounds hb).1
        have hhi := Block.Tiles.le hrest
        by_cases hshort : key.last + 1 < a.key.last
        · have hsome : t.searchSuperset near = some a := by
            refine h.searchSuperset_eq_some (by simp [hlist]) ?_ ?_ <;> omega
          simp only [hsome]
          split
          · rename_i hstate
            have hhi' : a.key.last = 2 ^ 64 - 1 → hi = 2 ^ 64 := by
              intro hmax
              cases ys with
              | nil =>
                  rw [tiling_nil] at hrest
                  omega
              | cons b ys =>
                  have hblt := b.key.lt
                  have hble := b.key.le
                  have := hbehind b List.mem_cons_self
                  omega
            rw [RangeInclusive.new_eq (show key.start ≤ a.key.last by omega) halt (by omega)]
            refine ⟨_, [a], ys, rfl, rfl, rfl, ⟨?_, by simp [hstate], by simp⟩, by simp⟩
            simp [hstart]
          · rename_i hstate
            refine ⟨key, [], a :: ys, rfl, rfl, rfl, Leftover.nil _, ?_⟩
            intro _ b hb hfree
            obtain rfl : b = a := by simpa using hb.symm
            exact absurd hfree hstate
        · have hnone : t.searchSuperset near = none := by
            refine h.searchSuperset_eq_none fun b hb => ?_
            simp only [hlist, List.mem_append, List.mem_cons] at hb
            rcases hb with hb | rfl | hb
            · have := hxs b hb
              omega
            · omega
            · have := hbehind b hb
              omega
          simp only [hnone]
          refine ⟨key, [], a :: ys, rfl, rfl, rfl, Leftover.nil _, ?_⟩
          intro _ b hb _
          obtain rfl : b = a := by simpa using hb.symm
          simp only [RangeInclusive.len]
          omega
  · rename_i hmax
    refine ⟨key, [], ys, rfl, rfl, rfl, Leftover.nil _, ?_⟩
    intro _ b hb _
    have := (hys.mem_bounds (List.mem_of_head? hb)).1
    have hblt := b.key.lt
    have hble := b.key.le
    omega

/-! ## Taking the neighbours in -/

theorem exec_deleteBefore (h : WellFormed t) (hlist : t.toList = xs ++ left ++ ys)
    (hleft : Leftover range.start key.start left) :
    ∃ t', exec (IntervalTree.deleteBefore key range) t = (.ok (), t') ∧ WellFormed t' ∧ t'.toList = xs ++ ys := by
  have htiling := hleft.tiling
  have hlen := hleft.length_le
  unfold IntervalTree.deleteBefore
  rcases left with - | ⟨a, - | ⟨b, rest⟩⟩
  · rw [tiling_nil] at htiling
    rw [if_neg (by omega)]
    exact ⟨t, rfl, h, by simpa using hlist⟩
  · simp only [tiling_cons, tiling_nil] at htiling
    have ha := a.key.le
    have hsub : checkedSub key.start 1 = some (key.start - 1) := if_pos (by omega)
    have hnew : RangeInclusive.new range.start (key.start - 1) = .ok a.key := by
      rw [show key.start - 1 = a.key.last by omega, ← htiling.1]
      exact RangeInclusive.new_eq a.key.le a.key.lt a.key.notAll
    have hmiddle : t.toList = xs ++ a :: ys := by simpa using hlist
    obtain ⟨t', hexec, hwf, hlist'⟩ := h.exec_delete_middle hmiddle
    refine ⟨t', ?_, hwf, hlist'⟩
    rw [if_pos (by omega), hsub, exec_bind_ok (exec_orError_some _ _ _), hnew, exec_bind_ok (exec_ofResult_ok _ _), hexec]
  · simp at hlen

theorem exec_deleteAfter (h : WellFormed t) (hlist : t.toList = xs ++ (right ++ ys))
    (hright : Leftover (key.last + 1) (range.last + 1) right) :
    ∃ t', exec (IntervalTree.deleteAfter key range) t = (.ok (), t') ∧ WellFormed t' ∧ t'.toList = xs ++ ys := by
  have htiling := hright.tiling
  have hlen := hright.length_le
  unfold IntervalTree.deleteAfter
  rcases right with - | ⟨a, - | ⟨b, rest⟩⟩
  · rw [tiling_nil] at htiling
    rw [if_neg (by omega)]
    exact ⟨t, rfl, h, by simpa using hlist⟩
  · simp only [tiling_cons, tiling_nil] at htiling
    have ha := a.key.le
    have halt := a.key.lt
    have hadd : checkedAdd key.last 1 = some (key.last + 1) := if_pos (by omega)
    have hnew : RangeInclusive.new (key.last + 1) range.last = .ok a.key := by
      rw [show range.last = a.key.last by omega, ← htiling.1]
      exact RangeInclusive.new_eq a.key.le a.key.lt a.key.notAll
    have hmiddle : t.toList = xs ++ a :: ys := by simpa using hlist
    obtain ⟨t', hexec, hwf, hlist'⟩ := h.exec_delete_middle hmiddle
    refine ⟨t', ?_, hwf, hlist'⟩
    rw [if_pos (by omega), hadd, exec_bind_ok (exec_orError_some _ _ _), hnew, exec_bind_ok (exec_ofResult_ok _ _), hexec]
  · simp at hlen

theorem exec_free (h : WellFormed t) (htiling : Tiling lo t.toList hi) (hlen : t.toList.length ≤ maxSlots)
    (hall : ¬(lo = 0 ∧ hi = 2 ^ 64)) (hhi : hi ≤ 2 ^ 64) (hmem : slot ∈ t.toList) (hone : slot.key.start ≠ 1)
    (htwo : slot.key.last ≠ 2 ^ 64 - 2) :
    ∃ t', exec (IntervalTree.free slot.key) t = (.ok (), t') ∧ t'.Balanced ∧ Merged slot t.toList t'.toList := by
  obtain ⟨xs₀, ys₀, hlist⟩ := List.append_of_mem hmem
  obtain ⟨t₁, hdelete, hwf₁, hlist₁⟩ := h.exec_delete_middle hlist
  rw [hlist] at htiling
  obtain ⟨hxs, hys⟩ := tiling_middle.mp htiling
  have hbehind : ∀ b ∈ ys₀, slot.key.last < b.key.start := fun b hb => (hys.mem_bounds hb).1
  have hle := slot.key.le
  have hend := Block.Tiles.le hys
  obtain ⟨range₁, xs, left, hmergeLeft, rfl, hlast₁, hleft, hbefore⟩ :=
    hwf₁.exec_mergeLeft hlist₁ hxs hbehind hone (by omega)
  have hstart₁ := Block.Tiles.le hleft.tiling
  have hahead : ∀ a ∈ xs ++ left, a.key.last ≤ range₁.last := by
    intro a ha
    have := (hxs.mem_bounds ha).2
    omega
  rw [← hlast₁] at hys
  have hlo : lo ≤ range₁.start := by
    obtain ⟨mid, hmid, htail⟩ := tiling_append.mp hxs
    rw [← htail.left_unique hleft.tiling]
    exact Block.Tiles.le hmid
  obtain ⟨range, right, ys, hmergeRight, rfl, hstart, hright, hafter⟩ :=
    hwf₁.exec_mergeRight hlist₁ hys hahead (by omega) (by omega)
  rw [hlast₁] at hright
  rw [← hstart] at hleft
  obtain ⟨t₂, hdeleteBefore, hwf₂, hlist₂⟩ := hwf₁.exec_deleteBefore hlist₁ hleft
  obtain ⟨t₃, hdeleteAfter, hwf₃, hlist₃⟩ := hwf₂.exec_deleteAfter hlist₂ hright
  have hmerged : Merged slot (xs ++ left ++ slot :: (right ++ ys)) (xs ++ ⟨range, .free⟩ :: ys) :=
    ⟨hleft, hright, hbefore, hafter⟩
  have hroom : t₃.toList.length ≤ maxSlots := by
    rw [hlist₃]
    rw [hlist] at hlen
    simp only [List.length_append, List.length_cons] at hlen ⊢
    omega
  obtain ⟨t₄, hinsert, hwf₄, hlist₄⟩ := hwf₃.exec_insert_middle hroom hlist₃ (hmerged.tiling htiling).ordered
  refine ⟨t₄, ?_, hwf₄.balanced, ?_⟩
  · rw [IntervalTree.free, exec_bind_ok hdelete, exec_bind_ok hmergeLeft, exec_bind_ok hmergeRight,
      exec_bind_ok hdeleteBefore, exec_bind_ok hdeleteAfter, hinsert]
  · rw [hlist, hlist₄]
    exact hmerged

/-- Nothing is freed by a key that no slot has. -/
theorem exec_free_absent (h : WellFormed t) (hne : t ≠ .nil) (habsent : ∀ a ∈ t.toList, a.key ≠ key) :
    exec (IntervalTree.free key) t = (.error (.error .resourceNotAvailable), t) := by
  rw [IntervalTree.free, exec_bind_error (h.exec_delete_absent hne habsent)]

end WellFormed

end Rknpu.Pcie
