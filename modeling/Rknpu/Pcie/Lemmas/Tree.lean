import Rknpu.Pcie.Lemmas.Nodes

/-!
# Operations on the tree

A tree that is balanced and ordered, and has fewer slots than a balanced tree of height 50, takes every slot that
overlaps no other. So neither of the panics is reached, and the tree is never lost.
-/

namespace Rknpu.Pcie

/-! ## Running operations -/

/-- The answer and the tree afterwards. -/
def TreeM.exec {β : Type} (m : TreeM β) (t : InnerNode) : Except Failure β × InnerNode := m.run.run t

section Exec

variable {β γ : Type} {m : TreeM β} {f : β → TreeM γ} {t t' : InnerNode} {x : β} {e : Failure}

open TreeM

theorem exec_bind_ok (h : exec m t = (.ok x, t')) : exec (m >>= f) t = exec (f x) t' := by
  have hrun : m.run t = (Except.ok x, t') := h
  simp only [exec, ExceptT.run, bind, ExceptT.bind, ExceptT.mk, StateT.run, StateT.bind]
  exact congrArg (fun p : Except Failure β × InnerNode => StateT.run (ExceptT.bindCont f p.1) p.2) hrun

theorem exec_bind_error (h : exec m t = (.error e, t')) : exec (m >>= f) t = (.error e, t') := by
  have hrun : m.run t = (Except.error e, t') := h
  simp only [exec, ExceptT.run, bind, ExceptT.bind, ExceptT.mk, StateT.run, StateT.bind]
  exact congrArg (fun p : Except Failure β × InnerNode => StateT.run (ExceptT.bindCont f p.1) p.2) hrun

theorem exec_pure (x : β) (t : InnerNode) : exec (pure x : TreeM β) t = (.ok x, t) := rfl

theorem exec_throw (e : Failure) (t : InnerNode) : exec (throw e : TreeM β) t = (.error e, t) := rfl

theorem exec_get (t : InnerNode) : exec (get : TreeM InnerNode) t = (.ok t, t) := rfl

theorem exec_set (t t' : InnerNode) : exec (set t' : TreeM PUnit) t = (.ok ⟨⟩, t') := rfl

theorem exec_orError_some (x : β) (e : Error) (t : InnerNode) :
    exec (IntervalTree.orError (some x) e) t = (.ok x, t) := rfl

theorem exec_orError_none (e : Error) (t : InnerNode) :
    exec (IntervalTree.orError (none : Option β) e) t = (.error (.error e), t) := rfl

theorem exec_ofResult_ok (x : β) (t : InnerNode) : exec (IntervalTree.ofResult (.ok x)) t = (.ok x, t) := rfl

end Exec

/-! ## Well-formed trees -/

/-- A balanced tree of height 50 has more slots than this. -/
def maxSlots : Nat := 32951280097

structure WellFormed (t : InnerNode) : Prop where
  balanced : t.Balanced
  ordered : Ordered t.toList

variable {t t' : InnerNode} {slot : Slot} {key : RangeInclusive} {state : NodeState} {xs ys : List Slot}

namespace WellFormed

theorem height_lt (h : WellFormed t) (hlen : t.toList.length ≤ maxSlots) : t.height < 50 := by
  by_contra hge
  have hmono : Nat.fib 52 ≤ Nat.fib (t.height + 2) := Nat.fib_mono (by omega)
  have hfib : Nat.fib 52 = 32951280099 := by norm_num
  have hcount := h.balanced.fib_le_length
  simp only [maxSlots] at hlen
  omega

open TreeM

theorem exec_insert (h : WellFormed t) (hlen : t.toList.length ≤ maxSlots)
    (hfree : ∀ a ∈ t.toList, a.key.overlaps key = false) (state : NodeState) :
    ∃ t', exec (IntervalTree.insert key state) t = (.ok (), t') ∧ WellFormed t' ∧
      t'.toList.Perm (⟨key, state⟩ :: t.toList) := by
  obtain ⟨t', hins, hb, _, _, hord, xs, ys, hxs, hys⟩ :=
    InnerNode.insert_spec state h.balanced h.ordered (h.height_lt hlen) hfree
  refine ⟨t', ?_, ⟨hb, hord⟩, ?_⟩
  · rw [IntervalTree.insert, exec_bind_ok (exec_get t), exec_bind_ok (exec_set t Avl.nil), hins]
    rfl
  · rw [hys, hxs]
    exact List.perm_middle

theorem exec_delete (h : WellFormed t) (hmem : slot ∈ t.toList) :
    ∃ t', exec (IntervalTree.delete slot.key) t = (.ok (), t') ∧ WellFormed t' ∧
      t.toList.Perm (slot :: t'.toList) ∧ ∃ xs ys, t.toList = xs ++ slot :: ys ∧ t'.toList = xs ++ ys := by
  obtain ⟨t', hdel, hb, _, _, xs, ys, hxs, hys⟩ := InnerNode.delete_spec h.balanced h.ordered hmem
  have hord : Ordered t'.toList := by
    have hsub : t'.toList.Sublist t.toList := by
      rw [hxs, hys]
      exact (List.Sublist.refl xs).append (List.sublist_cons_self slot ys)
    exact h.ordered.sublist hsub
  refine ⟨t', ?_, ⟨hb, hord⟩, ?_, xs, ys, hxs, hys⟩
  · have hsearch : t.search slot.key = some slot := (InnerNode.search_eq_some_iff h.ordered).mpr ⟨hmem, rfl⟩
    cases t with
    | nil => simp at hmem
    | node a l r n =>
        rw [IntervalTree.delete, exec_bind_ok (exec_get _)]
        simp only [hsearch, hdel]
        rfl
  · rw [hys, hxs]
    exact List.perm_middle

/-- A key that no slot has. -/
theorem exec_delete_absent (h : WellFormed t) (hne : t ≠ .nil) (habsent : ∀ a ∈ t.toList, a.key ≠ key) :
    exec (IntervalTree.delete key) t = (.error (.error .resourceNotAvailable), t) := by
  have hsearch : t.search key = none := by
    rw [Option.eq_none_iff_forall_ne_some]
    intro a ha
    obtain ⟨hmem, hkey⟩ := (InnerNode.search_eq_some_iff h.ordered).mp ha
    exact habsent a hmem hkey
  cases t with
  | nil => exact absurd rfl hne
  | node a l r n =>
      rw [IntervalTree.delete, exec_bind_ok (exec_get _)]
      simp only [hsearch]
      rfl

theorem exec_markAsAllocated (h : WellFormed t) (hmem : slot ∈ t.toList) (hstate : slot.state = .free) :
    ∃ t', exec (IntervalTree.markAsAllocated slot.key) t = (.ok (), t') ∧ t'.Balanced ∧
      ∃ xs ys, t.toList = xs ++ slot :: ys ∧ t'.toList = xs ++ { slot with state := .allocated } :: ys := by
  obtain ⟨t', hmark, hb, _, xs, ys, hxs, hys⟩ :=
    InnerNode.markAsAllocated_spec h.balanced h.ordered hmem hstate
  refine ⟨t', ?_, hb, xs, ys, hxs, hys⟩
  cases t with
  | nil => simp at hmem
  | node a l r n =>
      rw [IntervalTree.markAsAllocated, exec_bind_ok (exec_get _)]
      simp only [hmark]
      rfl

end WellFormed

/-- Ordered lists with the same slots are the same list. -/
theorem Ordered.eq_of_perm (hxs : Ordered xs) (hys : Ordered ys) (hperm : xs.Perm ys) : xs = ys := by
  refine hperm.eq_of_pairwise (fun a b _ _ hab hba => ?_) hxs hys
  have ha := a.key.le
  have hb := b.key.le
  simp only [Slot.Before] at hab hba
  omega

end Rknpu.Pcie
