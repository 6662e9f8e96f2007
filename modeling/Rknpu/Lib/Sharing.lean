import Mathlib

/-!
# Who shares a value

A partial map and the keys that share one of its values. Changing the map at one key adds that key to the sharers of the
new value and takes it from those of the old one.
-/

variable {α β : Type}

/-- The keys that are mapped to a value. -/
def sharers (g : α → Option β) (b : β) : Set α := {a | g a = some b}

variable {g : α → Option β} {a a' : α} {b b' : β}

@[simp] theorem mem_sharers : a ∈ sharers g b ↔ g a = some b := Iff.rfl

theorem one_le_encard_sharers (h : g a = some b) : 1 ≤ (sharers g b).encard :=
  Set.one_le_encard_iff_nonempty.mpr ⟨a, h⟩

/-- A key that shares its value with no other. -/
theorem eq_of_encard_sharers_le_one (hle : (sharers g b).encard ≤ 1) (h : g a = some b) (h' : g a' = some b) :
    a = a' :=
  Set.encard_le_one_iff.mp hle a a' h h'

section Update

variable [DecidableEq α]

theorem sharers_update_of_ne (o : Option β) (hold : g a ≠ some b) (hnew : o ≠ some b) :
    sharers (Function.update g a o) b = sharers g b := by
  ext x
  by_cases hx : x = a
  · subst hx
    simp [hold, hnew]
  · simp [hx]

theorem sharers_update_self (hold : g a = some b) : sharers (Function.update g a (some b)) b = sharers g b := by
  rw [← hold, Function.update_eq_self]

theorem encard_sharers_update_add (hold : g a ≠ some b) :
    (sharers (Function.update g a (some b)) b).encard = (sharers g b).encard + 1 := by
  have hinsert : sharers (Function.update g a (some b)) b = insert a (sharers g b) := by
    ext x
    by_cases hx : x = a
    · subst hx
      simp
    · simp [hx]
  rw [hinsert, Set.encard_insert_of_notMem (mem_sharers.not.mpr hold)]

theorem encard_sharers_update_sub (o : Option β) (hold : g a = some b) (hnew : o ≠ some b) :
    (sharers (Function.update g a o) b).encard + 1 = (sharers g b).encard := by
  have hdiff : sharers (Function.update g a o) b = sharers g b \ {a} := by
    ext x
    by_cases hx : x = a
    · subst hx
      simp [hnew]
    · simp [hx]
  rw [hdiff, Set.encard_sdiff_singleton_add_one (mem_sharers.mpr hold)]

end Update
