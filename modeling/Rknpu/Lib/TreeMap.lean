import Mathlib

/-!
# Entries of an ordered map under insertion and removal

An extensional tree map is determined by its lookups, but a count over its entries is a fact about the
list of entries. The two permutations below say how that list changes.
-/

namespace Std.ExtTreeMap

variable {κ β : Type} {cmp : κ → κ → Ordering} [TransCmp cmp] [LawfulEqCmp cmp]

/-! ## Lookups at other keys -/

theorem getElem?_insert_of_ne {t : ExtTreeMap κ β cmp} {k k' : κ} {v : β} (h : k ≠ k') :
    (t.insert k v)[k']? = t[k']? := by
  simp [getElem?_insert, h]

theorem getElem?_erase_of_ne {t : ExtTreeMap κ β cmp} {k k' : κ} (h : k ≠ k') :
    (t.erase k)[k']? = t[k']? := by
  simp [getElem?_erase, h]

theorem getElem?_modify_of_ne {t : ExtTreeMap κ β cmp} {k k' : κ} {f : β → β} (h : k ≠ k') :
    (t.modify k f)[k']? = t[k']? := by
  simp [getElem?_modify, h]

theorem getElem?_modify_eq_none_iff {t : ExtTreeMap κ β cmp} {k k' : κ} {f : β → β} :
    (t.modify k f)[k']? = none ↔ t[k']? = none := by
  by_cases h : k = k'
  · subst h
    rw [getElem?_modify_self, Option.map_eq_none_iff]
  · rw [getElem?_modify_of_ne h]

theorem eq_empty_of_getElem? {t : ExtTreeMap κ β cmp} (h : ∀ k : κ, t[k]? = none) : t = ∅ :=
  ext_getElem? fun k => (h k).trans getElem?_empty.symm

/-! ## Changes undone by a removal -/

theorem erase_eq_self {t : ExtTreeMap κ β cmp} {k : κ} (h : t[k]? = none) : t.erase k = t := by
  refine ext_getElem? fun k' => ?_
  by_cases hk : k = k'
  · subst hk
    rw [getElem?_erase_self, h]
  · exact getElem?_erase_of_ne hk

/-- A fresh entry leaves no trace when it is removed again. -/
theorem erase_insert_of_fresh {t : ExtTreeMap κ β cmp} {k : κ} (v : β) (h : t[k]? = none) :
    (t.insert k v).erase k = t := by
  refine ext_getElem? fun k' => ?_
  by_cases hk : k = k'
  · subst hk
    rw [getElem?_erase_self, h]
  · rw [getElem?_erase_of_ne hk, getElem?_insert_of_ne hk]

theorem insert_insert_same {t : ExtTreeMap κ β cmp} {k : κ} (v v' : β) : (t.insert k v).insert k v' = t.insert k v' := by
  refine ext_getElem? fun k' => ?_
  by_cases hk : k = k'
  · subst hk
    rw [getElem?_insert_self, getElem?_insert_self]
  · rw [getElem?_insert_of_ne hk, getElem?_insert_of_ne hk, getElem?_insert_of_ne hk]

theorem erase_modify_same {t : ExtTreeMap κ β cmp} {k : κ} (f : β → β) : (t.modify k f).erase k = t.erase k := by
  refine ext_getElem? fun k' => ?_
  by_cases hk : k = k'
  · subst hk
    rw [getElem?_erase_self, getElem?_erase_self]
  · rw [getElem?_erase_of_ne hk, getElem?_erase_of_ne hk, getElem?_modify_of_ne hk]

/-! ## Entries -/

theorem nodup_toList (t : ExtTreeMap κ β cmp) : t.toList.Nodup := by
  refine t.distinct_keys_toList.imp ?_
  intro a b h he
  subst he
  exact h ReflCmp.compare_self

/-- Inserting at a fresh key adds one entry. -/
theorem toList_insert_perm {t : ExtTreeMap κ β cmp} {k : κ} (v : β) (h : t[k]? = none) :
    (t.insert k v).toList.Perm ((k, v) :: t.toList) := by
  have hfresh : (k, v) ∉ t.toList := by
    rw [mem_toList_iff_getElem?_eq_some, h]
    exact nofun
  rw [List.perm_ext_iff_of_nodup (nodup_toList _) (List.nodup_cons.mpr ⟨hfresh, nodup_toList t⟩)]
  rintro ⟨k', v'⟩
  rw [List.mem_cons, mem_toList_iff_getElem?_eq_some, mem_toList_iff_getElem?_eq_some, getElem?_insert]
  by_cases hk : k = k'
  · subst hk
    simp only [ReflCmp.compare_self, ↓reduceIte, Option.some.injEq, Prod.mk.injEq, true_and, h,
      reduceCtorEq, or_false]
    exact eq_comm
  · simp [hk, Ne.symm hk]

/-- Removing a present key takes its entry away and no other. -/
theorem toList_erase_perm {t : ExtTreeMap κ β cmp} {k : κ} {v : β} (h : t[k]? = some v) :
    t.toList.Perm ((k, v) :: (t.erase k).toList) := by
  have hgone : (t.erase k)[k]? = none := by simp
  have hback : (t.erase k).insert k v = t := by
    apply ext_getElem?
    intro k'
    rw [getElem?_insert, getElem?_erase]
    by_cases hk : k = k'
    · subst hk
      simp [h]
    · simp [hk]
  have hperm := toList_insert_perm v hgone
  rwa [hback] at hperm

/-- Inserting puts one entry in place of what was there. -/
theorem toList_insert_perm_erase (t : ExtTreeMap κ β cmp) (k : κ) (v : β) :
    (t.insert k v).toList.Perm ((k, v) :: (t.erase k).toList) := by
  have hself : (t.insert k v)[k]? = some v := getElem?_insert_self
  have herase : (t.insert k v).erase k = t.erase k := by
    apply ext_getElem?
    intro k'
    by_cases hk : k = k'
    · subst hk
      rw [getElem?_erase_self, getElem?_erase_self]
    · rw [getElem?_erase_of_ne hk, getElem?_erase_of_ne hk, getElem?_insert_of_ne hk]
  have hperm := toList_erase_perm hself
  rwa [herase] at hperm

end Std.ExtTreeMap
