import Mathlib

/-!
# Machine arithmetic

`UInt32` addition wraps, as unsigned addition does in a release build. The saturating and the checked
operations of the machine are defined here, each with its value over the natural numbers, so that later
proofs leave the fixed width at once and finish with `omega`.
-/

namespace UInt32

/-! ## Operations -/

/-- The sum, or the largest value when the sum does not fit. -/
def saturatingAdd (a b : UInt32) : UInt32 :=
  if a.toNat + b.toNat < 2 ^ 32 then a + b else UInt32.ofNat (2 ^ 32 - 1)

/-- The difference, or zero when the subtrahend is larger. -/
def saturatingSub (a b : UInt32) : UInt32 :=
  if b ≤ a then a - b else 0

/-- The product, or the largest value when the product does not fit. -/
def saturatingMul (a b : UInt32) : UInt32 :=
  if a.toNat * b.toNat < 2 ^ 32 then a * b else UInt32.ofNat (2 ^ 32 - 1)

/-- The wrapped sum, and whether it did not fit. -/
def overflowingAdd (a b : UInt32) : UInt32 × Bool := (a + b, decide (2 ^ 32 ≤ a.toNat + b.toNat))

def overflowingSub (a b : UInt32) : UInt32 × Bool := (a - b, decide (a < b))

def overflowingMul (a b : UInt32) : UInt32 × Bool := (a * b, decide (2 ^ 32 ≤ a.toNat * b.toNat))

/-- The quotient, rounded up. -/
def divCeil (a b : UInt32) : UInt32 := if a % b = 0 then a / b else a / b + 1

/-- The sum, when it fits. -/
def checkedAdd (a b : UInt32) : Option UInt32 :=
  if a.toNat + b.toNat < 2 ^ 32 then some (a + b) else none

/-- The sum from left to right, when every partial sum fits. -/
def checkedSum (l : List UInt32) : Option UInt32 := l.foldlM checkedAdd 0

/-! ## Values over the natural numbers -/

theorem toNat_add_of_lt {a b : UInt32} (h : a.toNat + b.toNat < 2 ^ 32) :
    (a + b).toNat = a.toNat + b.toNat := by
  rw [UInt32.toNat_add, Nat.mod_eq_of_lt h]

theorem toNat_saturatingAdd (a b : UInt32) :
    (a.saturatingAdd b).toNat = min (a.toNat + b.toNat) (2 ^ 32 - 1) := by
  unfold saturatingAdd
  split
  · rename_i h
    rw [toNat_add_of_lt h]
    omega
  · rename_i h
    rw [UInt32.toNat_ofNat_of_lt' (by decide)]
    omega

theorem toNat_saturatingSub (a b : UInt32) : (a.saturatingSub b).toNat = a.toNat - b.toNat := by
  unfold saturatingSub
  split
  · rename_i h
    exact UInt32.toNat_sub_of_le a b h
  · rename_i h
    have hlt : a.toNat < b.toNat := by
      rw [UInt32.le_iff_toNat_le] at h
      omega
    simp only [UInt32.toNat_zero]
    omega

theorem checkedAdd_eq_some_iff {a b c : UInt32} :
    a.checkedAdd b = some c ↔ c.toNat = a.toNat + b.toNat := by
  unfold checkedAdd
  split
  · rename_i h
    rw [Option.some.injEq, ← UInt32.toNat_inj, toNat_add_of_lt h]
    exact eq_comm
  · rename_i h
    have hc := c.toNat_lt
    constructor
    · intro he; cases he
    · intro he; omega

theorem checkedAdd_eq_none_iff {a b : UInt32} :
    a.checkedAdd b = none ↔ 2 ^ 32 ≤ a.toNat + b.toNat := by
  unfold checkedAdd
  split
  · rename_i h
    simp only [reduceCtorEq, false_iff]
    omega
  · rename_i h
    simp only [true_iff]
    omega

theorem overflowingAdd_fits {a b : UInt32} : (a.overflowingAdd b).2 = false ↔ a.toNat + b.toNat < 2 ^ 32 := by
  rw [overflowingAdd, decide_eq_false_iff_not, Nat.not_le]

theorem overflowingSub_fits {a b : UInt32} : (a.overflowingSub b).2 = false ↔ b ≤ a := by
  rw [overflowingSub, decide_eq_false_iff_not, UInt32.not_lt]

theorem toNat_divCeil_two (a : UInt32) : (a.divCeil 2).toNat = (a.toNat + 1) / 2 := by
  have ha := a.toNat_lt
  unfold divCeil
  split
  · rename_i h
    have hmod : a.toNat % 2 = 0 := by simpa [← UInt32.toNat_inj] using h
    rw [UInt32.toNat_div]
    simp only [UInt32.reduceToNat]
    omega
  · rename_i h
    have hmod : ¬ a.toNat % 2 = 0 := by simpa [← UInt32.toNat_inj] using h
    rw [UInt32.toNat_add, UInt32.toNat_div]
    simp only [UInt32.reduceToNat]
    omega

/-! ## Masks -/

/-- A value has no bit outside a mask. -/
theorem and_not_eq_zero_iff {x mask : UInt32} :
    x &&& ~~~mask = 0 ↔ ∀ bit, x.toNat.testBit bit = true → mask.toNat.testBit bit = true := by
  rw [← UInt32.toBitVec_inj, BitVec.eq_of_getLsbD_eq_iff]
  constructor
  · intro h bit hbit
    have hlt : bit < 32 := by
      by_contra hge
      rw [Nat.testBit_lt_two_pow (lt_of_lt_of_le x.toNat_lt (Nat.pow_le_pow_right (by decide) (by omega)))] at hbit
      cases hbit
    have hout := h bit hlt
    rw [← UInt32.toNat_toBitVec, BitVec.testBit_toNat] at hbit ⊢
    simpa [hbit, hlt] using hout
  · intro h bit hlt
    have hin := h bit
    rw [← UInt32.toNat_toBitVec, ← UInt32.toNat_toBitVec, BitVec.testBit_toNat, BitVec.testBit_toNat] at hin
    simpa [hlt] using hin

/-! ## Wrapping sums -/

theorem toNat_sum (l : List UInt32) : l.sum.toNat = (l.map toNat).sum % 2 ^ 32 := by
  induction l with
  | nil => rfl
  | cons a l ih =>
      rw [List.sum_cons, List.map_cons, List.sum_cons, UInt32.toNat_add, ih]
      omega

theorem foldlM_checkedAdd_eq_some_iff {l : List UInt32} {a b : UInt32} :
    l.foldlM checkedAdd a = some b ↔ b.toNat = a.toNat + (l.map toNat).sum := by
  induction l generalizing a with
  | nil => simp [← UInt32.toNat_inj, eq_comm]
  | cons x l ih =>
      rw [List.foldlM_cons, List.map_cons, List.sum_cons]
      cases hx : a.checkedAdd x with
      | none =>
          -- A sum that has left the width does not come back.
          have hover := checkedAdd_eq_none_iff.mp hx
          have hb := b.toNat_lt
          simp only [Option.bind_eq_bind, Option.bind_none, reduceCtorEq, false_iff]
          omega
      | some c =>
          have hc := checkedAdd_eq_some_iff.mp hx
          simp only [Option.bind_eq_bind, Option.bind_some, ih, hc, Nat.add_assoc]

/-- The sum fits when it is below the width over the natural numbers. -/
theorem isSome_checkedSum {l : List UInt32} (h : (l.map toNat).sum < 2 ^ 32) : (checkedSum l).isSome = true := by
  refine Option.isSome_iff_exists.mpr ⟨UInt32.ofNat (l.map toNat).sum, foldlM_checkedAdd_eq_some_iff.mpr ?_⟩
  rw [UInt32.toNat_ofNat_of_lt' h, UInt32.toNat_zero, Nat.zero_add]

/-- The entries of a vector, by index. -/
theorem toList_vector {α : Type} {n : Nat} (v : Vector α n) : v.toList = (List.finRange n).map fun i => v[i] := by
  apply List.ext_getElem (by simp)
  simp

theorem sum_map_toNat_vector {α : Type} {n : Nat} (v : Vector α n) (f : α → UInt32) :
    ((v.toList.map f).map toNat).sum = ∑ i : Fin n, (f v[i]).toNat := by
  rw [toList_vector, Fin.sum_univ_def, List.map_map, List.map_map]
  rfl

theorem toNat_sum_vector {α : Type} {n : Nat} (v : Vector α n) (f : α → UInt32) :
    (v.toList.map f).sum.toNat = (∑ i : Fin n, (f v[i]).toNat) % 2 ^ 32 := by
  rw [toNat_sum, sum_map_toNat_vector]

end UInt32

/-! ## Rounding with a mask -/

/-- A mask of all bits but the low `k` rounds down to a multiple of `2 ^ k`. -/
theorem Nat.and_high_bits {n k m : Nat} (h : n < 2 ^ (k + m)) : n &&& (2 ^ m - 1) * 2 ^ k = n / 2 ^ k * 2 ^ k := by
  apply Nat.eq_of_testBit_eq
  intro i
  rw [Nat.testBit_and, Nat.testBit_mul_two_pow, Nat.testBit_mul_two_pow, Nat.testBit_two_pow_sub_one,
    Nat.testBit_div_two_pow]
  by_cases hlow : k ≤ i
  · by_cases hhigh : i < k + m
    · simp [hlow, show i - k < m by omega]
    · have hzero : n.testBit i = false :=
        Nat.testBit_lt_two_pow (lt_of_lt_of_le h (Nat.pow_le_pow_right (by omega) (by omega)))
      simp [hlow, hzero]
  · simp [hlow]
