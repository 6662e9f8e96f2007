import Rknpu.Lib.Tiling
import Rknpu.Pcie.Lemmas.Candidates

/-!
# Allocating from a tree whose slots tile an address range

An allocation carves the range that it hands out from a free slot and puts what is left of the slot back.
-/

namespace Rknpu.Pcie

/-! ## Slots that tile a range -/

def Slot.block (slot : Slot) : Block := ⟨slot.key.start, slot.key.len⟩

/-- The slots run from `lo` up to `hi`, one after the other. -/
def Tiling (lo : Nat) (slots : List Slot) (hi : Nat) : Prop := Block.Tiles lo (slots.map Slot.block) hi

variable {slots xs ys pre post : List Slot} {slot a : Slot} {lo mid hi : Nat} {key result : RangeInclusive}
  {t : InnerNode} {c : Constraint} {range : RangeInclusive}

@[simp] theorem tiling_nil : Tiling lo [] hi ↔ lo = hi := Iff.rfl

@[simp] theorem tiling_cons :
    Tiling lo (slot :: slots) hi ↔ slot.key.start = lo ∧ Tiling (slot.key.last + 1) slots hi := by
  have hle := slot.key.le
  simp only [Tiling, List.map_cons, Block.tiles_cons, Slot.block, RangeInclusive.len]
  refine and_congr_right fun hstart => ?_
  rw [← hstart, show slot.key.start + (slot.key.last - slot.key.start + 1) = slot.key.last + 1 by omega]

theorem tiling_append : Tiling lo (xs ++ ys) hi ↔ ∃ mid, Tiling lo xs mid ∧ Tiling mid ys hi := by
  simp only [Tiling, List.map_append, Block.tiles_append_iff]

/-- What lies before a slot ends at its start, and what lies after it starts at its end. -/
theorem tiling_middle : Tiling lo (xs ++ slot :: ys) hi ↔
    Tiling lo xs slot.key.start ∧ Tiling (slot.key.last + 1) ys hi := by
  simp only [tiling_append, tiling_cons]
  constructor
  · rintro ⟨mid, hxs, rfl, hys⟩
    exact ⟨hxs, hys⟩
  · rintro ⟨hxs, hys⟩
    exact ⟨_, hxs, rfl, hys⟩

namespace Tiling

theorem mem_bounds (h : Tiling lo slots hi) (ha : a ∈ slots) : lo ≤ a.key.start ∧ a.key.last < hi := by
  obtain ⟨xs, ys, rfl⟩ := List.append_of_mem ha
  obtain ⟨hxs, hys⟩ := tiling_middle.mp h
  exact ⟨Block.Tiles.le hxs, Nat.lt_of_succ_le (Block.Tiles.le hys)⟩

theorem ordered (h : Tiling lo slots hi) : Ordered slots := by
  induction slots generalizing lo with
  | nil => exact List.Pairwise.nil
  | cons slot slots ih =>
      obtain ⟨_, hrest⟩ := tiling_cons.mp h
      exact List.pairwise_cons.mpr ⟨fun b hb => (hrest.mem_bounds hb).1, ih hrest⟩

theorem exists_mem_iff (h : Tiling lo slots hi) {i : Nat} :
    (∃ a ∈ slots, a.key.start ≤ i ∧ i ≤ a.key.last) ↔ lo ≤ i ∧ i < hi := by
  rw [← Block.Tiles.exists_mem_iff h]
  simp only [List.mem_map, exists_exists_and_eq_and, Block.mem_elems, Slot.block, RangeInclusive.len]
  refine exists_congr fun a => and_congr_right fun _ => ?_
  have hle := a.key.le
  omega

end Tiling

/-- The other slots leave alone what one slot covers. -/
theorem Ordered.overlaps_middle (h : Ordered (xs ++ slot :: ys)) (hstart : slot.key.start ≤ key.start)
    (hlast : key.last ≤ slot.key.last) : ∀ a ∈ xs ++ ys, a.key.overlaps key = false := by
  obtain ⟨_, hright, hbetween⟩ := List.pairwise_append.mp h
  have hslot := (List.pairwise_cons.mp hright).1
  intro a ha
  rw [RangeInclusive.overlaps_eq_false_iff]
  simp only [Slot.Before] at hbetween hslot
  rcases List.mem_append.mp ha with hx | hy
  · have := hbetween a hx slot List.mem_cons_self
    omega
  · have := hslot a hy
    omega

/-! ## What is left of a slot -/

/-- At most one free slot, from `lo` up to `hi`. -/
structure Leftover (lo hi : Nat) (slots : List Slot) : Prop where
  tiling : Tiling lo slots hi
  free : ∀ a ∈ slots, a.state = .free
  length_le : slots.length ≤ 1

theorem Leftover.nil (lo : Nat) : Leftover lo lo [] := ⟨rfl, by simp, by simp⟩

theorem Leftover.singleton (hstart : key.start = lo) (hlast : key.last + 1 = hi) : Leftover lo hi [⟨key, .free⟩] :=
  ⟨by simp [hstart, hlast], by simp, by simp⟩

/-- The slots before and after `result` was handed out from one of them. -/
inductive Carved (slot : Slot) (result : RangeInclusive) : List Slot → List Slot → Prop where
  | intro {xs ys pre post : List Slot} (hpre : Leftover slot.key.start result.start pre)
      (hpost : Leftover (result.last + 1) (slot.key.last + 1) post) :
      Carved slot result (xs ++ slot :: ys) (xs ++ (pre ++ ⟨result, .allocated⟩ :: post) ++ ys)

namespace WellFormed

open TreeM

/-- Insertion of at most one free slot. -/
theorem exec_insertBefore (h : WellFormed t) (hlen : t.toList.length ≤ maxSlots)
    (hfree : ∀ a ∈ t.toList, a.key.overlaps key = false) (hstart : key.start ≤ result.start)
    (hlast : result.last ≤ key.last) :
    ∃ t' pre, exec (IntervalTree.insertBefore key result) t = (.ok (), t') ∧ WellFormed t' ∧
      t'.toList.Perm (pre ++ t.toList) ∧ Leftover key.start result.start pre := by
  have hresult := result.le
  have hkey := key.lt
  unfold IntervalTree.insertBefore
  split
  · rename_i hlt
    have hle : key.start ≤ result.start - 1 := by omega
    have hall : ¬(key.start = 0 ∧ result.start - 1 = 2 ^ 64 - 1) := by omega
    have hword : result.start - 1 < 2 ^ 64 := by omega
    have hsub : checkedSub result.start 1 = some (result.start - 1) := if_pos (by omega)
    have hroom : ∀ a ∈ t.toList,
        a.key.overlaps ⟨key.start, result.start - 1, hle, hword, hall⟩ = false := by
      intro a ha
      have := hfree a ha
      simp only [RangeInclusive.overlaps_eq_false_iff] at this ⊢
      omega
    obtain ⟨t', hexec, hwf, hperm⟩ := h.exec_insert hlen hroom .free
    refine ⟨t', [_], ?_, hwf, hperm, .singleton rfl (Nat.sub_add_cancel (by omega))⟩
    rw [hsub, exec_bind_ok (exec_orError_some _ _ _), RangeInclusive.new_eq hle hword hall,
      exec_bind_ok (exec_ofResult_ok _ _), hexec]
  · rename_i hge
    rw [show key.start = result.start by omega]
    exact ⟨t, [], rfl, h, List.Perm.refl _, Leftover.nil _⟩

theorem exec_insertAfter (h : WellFormed t) (hlen : t.toList.length ≤ maxSlots)
    (hfree : ∀ a ∈ t.toList, a.key.overlaps key = false ∨ a.key.last ≤ result.last) (hstart : key.start ≤ result.start)
    (hlast : result.last ≤ key.last) :
    ∃ t' post, exec (IntervalTree.insertAfter key result) t = (.ok (), t') ∧ WellFormed t' ∧
      t'.toList.Perm (post ++ t.toList) ∧ Leftover (result.last + 1) (key.last + 1) post := by
  have hresult := result.le
  have hkey := key.lt
  unfold IntervalTree.insertAfter
  split
  · rename_i hlt
    have hle : result.last + 1 ≤ key.last := by omega
    have hall : ¬(result.last + 1 = 0 ∧ key.last = 2 ^ 64 - 1) := by omega
    have hadd : checkedAdd result.last 1 = some (result.last + 1) := if_pos (by omega)
    have hroom : ∀ a ∈ t.toList, a.key.overlaps ⟨result.last + 1, key.last, hle, key.lt, hall⟩ = false := by
      intro a ha
      have := hfree a ha
      simp only [RangeInclusive.overlaps_eq_false_iff] at this ⊢
      omega
    obtain ⟨t', hexec, hwf, hperm⟩ := h.exec_insert hlen hroom .free
    refine ⟨t', [_], ?_, hwf, hperm, .singleton rfl rfl⟩
    rw [hadd, exec_bind_ok (exec_orError_some _ _ _), RangeInclusive.new_eq hle key.lt hall,
      exec_bind_ok (exec_ofResult_ok _ _), hexec]
  · rename_i hge
    rw [show result.last = key.last by omega]
    exact ⟨t, [], rfl, h, List.Perm.refl _, Leftover.nil _⟩

/-- The slot goes; its two leftovers and the allocated range come. -/
theorem exec_split (h : WellFormed t) (htiling : Tiling lo t.toList hi) (hlen : t.toList.length + 1 ≤ maxSlots)
    (hmem : slot ∈ t.toList) (hstart : slot.key.start ≤ result.start) (hlast : result.last ≤ slot.key.last) :
    ∃ t', exec (IntervalTree.split slot.key result) t = (.ok result, t') ∧ t'.Balanced ∧
      Carved slot result t.toList t'.toList := by
  obtain ⟨t₁, hdelete, hwf₁, hperm₁, xs, ys, hxs, hys⟩ := h.exec_delete hmem
  have hord : Ordered (xs ++ slot :: ys) := hxs ▸ h.ordered
  have hroom : ∀ a ∈ t₁.toList, a.key.overlaps slot.key = false := by
    rw [hys]
    exact hord.overlaps_middle le_rfl le_rfl
  have hlen₁ := hperm₁.length_eq
  rw [List.length_cons] at hlen₁
  obtain ⟨t₂, pre, hbefore, hwf₂, hperm₂, hpre⟩ := hwf₁.exec_insertBefore (by omega) hroom hstart hlast
  have hlen₂ := hperm₂.length_eq
  have hpre_len := hpre.length_le
  rw [List.length_append] at hlen₂
  have hresult := result.le
  have hroom₂ : ∀ a ∈ t₂.toList, a.key.overlaps result = false := by
    intro a ha
    rw [RangeInclusive.overlaps_eq_false_iff]
    rcases List.mem_append.mp (hperm₂.subset ha) with hp | ht
    · exact .inl (hpre.tiling.mem_bounds hp).2
    · have := RangeInclusive.overlaps_eq_false_iff.mp (hroom a ht)
      omega
  obtain ⟨t₃, hinsert, hwf₃, hperm₃⟩ := hwf₂.exec_insert (by omega) hroom₂ .allocated
  have hlen₃ := hperm₃.length_eq
  rw [List.length_cons] at hlen₃
  have hroom₃ : ∀ a ∈ t₃.toList, a.key.overlaps slot.key = false ∨ a.key.last ≤ result.last := by
    intro a ha
    rcases List.mem_cons.mp (hperm₃.subset ha) with rfl | ha
    · exact .inr le_rfl
    · rcases List.mem_append.mp (hperm₂.subset ha) with hp | ht
      · have := (hpre.tiling.mem_bounds hp).2
        exact .inr (by omega)
      · exact .inl (hroom a ht)
  obtain ⟨t₄, post, hafter, hwf₄, hperm₄, hpost⟩ := hwf₃.exec_insertAfter (by omega) hroom₃ hstart hlast
  refine ⟨t₄, ?_, hwf₄.balanced, ?_⟩
  · rw [IntervalTree.split, exec_bind_ok hdelete, exec_bind_ok hbefore, exec_bind_ok hinsert, exec_bind_ok hafter,
      exec_pure]
  · -- The slots afterwards are known up to order, and there is one order.
    obtain ⟨hleft, hright⟩ := tiling_middle.mp (hxs ▸ htiling)
    have hcarved : Tiling lo (xs ++ (pre ++ ⟨result, .allocated⟩ :: post) ++ ys) hi :=
      tiling_append.mpr ⟨_, tiling_append.mpr ⟨_, hleft, tiling_middle.mpr ⟨hpre.tiling, hpost.tiling⟩⟩, hright⟩
    have hperm : t₄.toList.Perm (xs ++ (pre ++ ⟨result, .allocated⟩ :: post) ++ ys) := by
      refine hperm₄.trans ?_
      rw [hys] at hperm₂
      have hmiddle := (List.Perm.cons ⟨result, .allocated⟩ hperm₂)
      refine ((hperm₃.trans hmiddle).append_left post).trans ?_
      rw [List.perm_iff_count]
      intro b
      simp only [List.count_append, List.count_cons]
      omega
    rw [hwf₄.ordered.eq_of_perm hcarved.ordered hperm, hxs]
    exact ⟨hpre, hpost⟩

theorem exec_allocate_error {e : Error} (h : t.findCandidate c = .error e) (hne : t ≠ .nil) :
    exec (IntervalTree.allocate c) t = (.error (.error e), t) := by
  cases t with
  | nil => exact absurd rfl hne
  | node a l r n =>
      rw [IntervalTree.allocate, exec_bind_ok (exec_get _)]
      simp only [h]
      rfl

/-- A request that ends with the address space finds a slot and still fails. -/
theorem exec_allocate_overflow (hfind : t.findCandidate c = .ok (slot, range)) (hmem : slot ∈ t.toList)
    (hend : 2 ^ 64 ≤ range.start + c.size) :
    exec (IntervalTree.allocate c) t = (.error (.error .overflow), t) := by
  cases t with
  | nil => simp at hmem
  | node a l r n =>
      have hadd : checkedAdd range.start c.size = none := if_neg (by omega)
      rw [IntervalTree.allocate, exec_bind_ok (exec_get _)]
      simp only [hfind]
      rw [exec_bind_ok (exec_ofResult_ok _ _), hadd]
      rfl

theorem exec_allocate (h : WellFormed t) (htiling : Tiling lo t.toList hi) (hlen : t.toList.length + 1 ≤ maxSlots)
    (hc : c.Valid) (hfind : t.findCandidate c = .ok (slot, range)) (hend : range.start + c.size < 2 ^ 64)
    (hslot : slot.key.start = range.start → slot.key.len = c.size → slot.state = .free) :
    ∃ t' result, exec (IntervalTree.allocate c) t = (.ok result, t') ∧ result.start = range.start ∧
      result.last + 1 = range.start + c.size ∧ t'.Balanced ∧ Carved slot result t.toList t'.toList := by
  obtain ⟨hmem, hstart, _, hroom, _⟩ := findCandidate_eq_ok h.ordered hc hfind
  have hpos := hc.size_pos
  have hkey := slot.key.le
  have hall := slot.key.notAll
  have hadd : checkedAdd range.start c.size = some (range.start + c.size) := if_pos hend
  have hsub : checkedSub (range.start + c.size) 1 = some (range.start + c.size - 1) := if_pos (by omega)
  obtain ⟨result, hnew, hresult, hlast⟩ : ∃ result, RangeInclusive.new range.start (range.start + c.size - 1) = .ok result ∧
      result.start = range.start ∧ result.last = range.start + c.size - 1 :=
    ⟨_, RangeInclusive.new_eq (by omega) (by omega) (by omega), rfl, rfl⟩
  have hexec : exec (IntervalTree.allocate c) t = exec
      (if slot.key.start = result.start ∧ slot.key.len = c.size then do
        IntervalTree.markAsAllocated slot.key
        pure slot.key
      else IntervalTree.split slot.key result) t := by
    cases t with
    | nil => simp at hmem
    | node a l r n =>
        rw [IntervalTree.allocate, exec_bind_ok (exec_get _)]
        simp only [hfind]
        rw [exec_bind_ok (exec_ofResult_ok _ _)]
        simp only [hadd]
        rw [exec_bind_ok (exec_orError_some _ _ _), hsub, exec_bind_ok (exec_orError_some _ _ _), hnew,
          exec_bind_ok (exec_ofResult_ok _ _)]
  rw [hexec]
  split
  · -- The whole slot is handed out.
    rename_i hwhole
    obtain ⟨t', hmark, hb, xs, ys, hxs, hys⟩ := h.exec_markAsAllocated hmem (hslot (by omega) hwhole.2)
    have hlen := hwhole.2
    simp only [RangeInclusive.len] at hlen
    refine ⟨t', slot.key, ?_, by omega, by omega, hb, ?_⟩
    · rw [exec_bind_ok hmark, exec_pure]
    · rw [hxs, hys]
      have hcarved : Carved slot slot.key (xs ++ slot :: ys) (xs ++ ([] ++ ⟨slot.key, .allocated⟩ :: []) ++ ys) :=
        ⟨Leftover.nil _, Leftover.nil _⟩
      simpa using hcarved
  · obtain ⟨t', hsplit, hb, hcarved⟩ := h.exec_split htiling hlen hmem (hresult ▸ hstart)
      (show result.last ≤ slot.key.last by omega)
    exact ⟨t', result, hsplit, hresult, by omega, hb, hcarved⟩

end WellFormed

/-! ## What carving keeps -/

namespace Carved

variable {before after : List Slot}

theorem tiling (h : Carved slot result before after) (htiling : Tiling lo before hi) : Tiling lo after hi := by
  obtain ⟨hpre, hpost⟩ := h
  obtain ⟨hxs, hys⟩ := tiling_middle.mp htiling
  exact tiling_append.mpr ⟨_, tiling_append.mpr ⟨_, hxs, tiling_middle.mpr ⟨hpre.tiling, hpost.tiling⟩⟩, hys⟩

theorem length_le (h : Carved slot result before after) : after.length ≤ before.length + 2 := by
  obtain ⟨hpre, hpost⟩ := h
  have hleft := hpre.length_le
  have hright := hpost.length_le
  simp only [List.length_append, List.length_cons]
  omega

theorem slot_mem (h : Carved slot result before after) : slot ∈ before := by
  obtain ⟨_, _⟩ := h
  simp

end Carved

end Rknpu.Pcie
