import Mathlib

/-!
# Arithmetic that marks overflow

What an operation that does not fit does depends on the build. A number of type `I32` is a signed 32-bit value together
with a mark that some operation on the way did not fit. Without the mark the value is the one over the integers, so that
a proof can leave the fixed width at once.
-/

/-- An operation that may not fit: a build with overflow checks stops there, one without wraps. -/
def arith {α : Type} (overflowChecks : Bool) (fits : Bool) (wrapped : α) : Option α :=
  if overflowChecks && !fits then none else some wrapped

theorem arith_eq_some {α : Type} {overflowChecks fits : Bool} {wrapped x : α} :
    arith overflowChecks fits wrapped = some x ↔ wrapped = x ∧ (overflowChecks = true → fits = true) := by
  unfold arith
  cases overflowChecks <;> cases fits <;> simp

structure I32 where
  val : Int32
  overflow : Bool
deriving DecidableEq, Repr

namespace I32

/-- The result of an operation that is `exact` over the integers and `wrapped` in the machine. -/
def mark (a b : I32) (exact : Int) (wrapped : Int32) : I32 :=
  ⟨wrapped, a.overflow || b.overflow || !decide (-2 ^ 31 ≤ exact ∧ exact < 2 ^ 31)⟩

def ofNat (n : Nat) : I32 := ⟨Int32.ofNat n, false⟩

instance (n : Nat) : OfNat I32 n := ⟨ofNat n⟩

instance : Add I32 := ⟨fun a b => mark a b (a.val.toInt + b.val.toInt) (a.val + b.val)⟩

instance : Sub I32 := ⟨fun a b => mark a b (a.val.toInt - b.val.toInt) (a.val - b.val)⟩

instance : Mul I32 := ⟨fun a b => mark a b (a.val.toInt * b.val.toInt) (a.val * b.val)⟩

instance : Div I32 := ⟨fun a b => mark a b (a.val.toInt.tdiv b.val.toInt) (a.val / b.val)⟩

instance : Mod I32 := ⟨fun a b => mark a b (a.val.toInt.tmod b.val.toInt) (a.val % b.val)⟩

/-- Nothing overflowed, and the value is `z`. -/
structure Is (a : I32) (z : Int) : Prop where
  fits : a.overflow = false
  value : a.val.toInt = z

/-- The value is `z` unless something overflowed. -/
def Denotes (a : I32) (z : Int) : Prop := a.overflow = false → a.val.toInt = z

theorem Is.denotes {a : I32} {z : Int} (h : a.Is z) : a.Denotes z := fun _ => h.value

theorem Denotes.is {a : I32} {z : Int} (h : a.Denotes z) (hfits : a.overflow = false) : a.Is z := ⟨hfits, h hfits⟩

theorem bmod_of_fits {z : Int} (h : -2 ^ 31 ≤ z ∧ z < 2 ^ 31) : z.bmod (2 ^ 32) = z :=
  Int.bmod_eq_of_le (by omega) (by omega)

theorem is_ofNat {n : Nat} (h : n < 2 ^ 31) : (ofNat n).Is n := by
  refine ⟨rfl, ?_⟩
  change (Int32.ofNat n).toInt = n
  exact Int32.toInt_ofNat_of_lt h

section

variable {a b : I32} {x y : Int}

theorem Is.mark {wrapped : Int32} {z : Int} (ha : a.overflow = false) (hb : b.overflow = false)
    (hwrap : wrapped.toInt = z.bmod (2 ^ 32)) (hz : -2 ^ 31 ≤ z ∧ z < 2 ^ 31) : (mark a b z wrapped).Is z := by
  refine ⟨?_, hwrap.trans (bmod_of_fits hz)⟩
  simp only [I32.mark, ha, hb, Bool.false_or, Bool.not_eq_false', decide_eq_true_eq]
  exact hz

theorem fits_of_mark {wrapped : Int32} {z : Int} (h : (mark a b z wrapped).overflow = false) :
    a.overflow = false ∧ b.overflow = false ∧ -2 ^ 31 ≤ z ∧ z < 2 ^ 31 := by
  simp only [mark, Bool.or_eq_false_iff, Bool.not_eq_false', decide_eq_true_eq] at h
  exact ⟨h.1.1, h.1.2, h.2⟩

theorem Is.add (ha : a.Is x) (hb : b.Is y) (h : -2 ^ 31 ≤ x + y ∧ x + y < 2 ^ 31) : (a + b).Is (x + y) := by
  obtain ⟨hfa, rfl⟩ := ha
  obtain ⟨hfb, rfl⟩ := hb
  exact .mark hfa hfb (Int32.toInt_add ..) h

theorem Is.sub (ha : a.Is x) (hb : b.Is y) (h : -2 ^ 31 ≤ x - y ∧ x - y < 2 ^ 31) : (a - b).Is (x - y) := by
  obtain ⟨hfa, rfl⟩ := ha
  obtain ⟨hfb, rfl⟩ := hb
  exact .mark hfa hfb (Int32.toInt_sub ..) h

theorem Is.mul (ha : a.Is x) (hb : b.Is y) (h : -2 ^ 31 ≤ x * y ∧ x * y < 2 ^ 31) : (a * b).Is (x * y) := by
  obtain ⟨hfa, rfl⟩ := ha
  obtain ⟨hfb, rfl⟩ := hb
  exact .mark hfa hfb (Int32.toInt_mul ..) h

theorem Is.div (ha : a.Is x) (hb : b.Is y) (h : -2 ^ 31 ≤ x.tdiv y ∧ x.tdiv y < 2 ^ 31) : (a / b).Is (x.tdiv y) := by
  obtain ⟨hfa, rfl⟩ := ha
  obtain ⟨hfb, rfl⟩ := hb
  exact .mark hfa hfb (Int32.toInt_div ..) h

theorem Is.mod (ha : a.Is x) (hb : b.Is y) (h : -2 ^ 31 ≤ x.tmod y ∧ x.tmod y < 2 ^ 31) : (a % b).Is (x.tmod y) := by
  obtain ⟨hfa, rfl⟩ := ha
  obtain ⟨hfb, rfl⟩ := hb
  exact .mark hfa hfb ((Int32.toInt_mod ..).trans (bmod_of_fits h).symm) h

theorem Denotes.add (ha : a.Denotes x) (hb : b.Denotes y) : (a + b).Denotes (x + y) := by
  intro h
  obtain ⟨hfa, hfb, hz⟩ := fits_of_mark h
  rw [ha hfa, hb hfb] at hz
  exact ((ha.is hfa).add (hb.is hfb) hz).value

theorem Denotes.mul (ha : a.Denotes x) (hb : b.Denotes y) : (a * b).Denotes (x * y) := by
  intro h
  obtain ⟨hfa, hfb, hz⟩ := fits_of_mark h
  rw [ha hfa, hb hfb] at hz
  exact ((ha.is hfa).mul (hb.is hfb) hz).value

end

/-! ## Natural numbers -/

section

variable {a b : I32} {x y : Nat}

theorem is_lit (n : Nat) (h : n < 2 ^ 31) : (OfNat.ofNat n : I32).Is n := is_ofNat h

theorem Is.add_nat (ha : a.Is x) (hb : b.Is y) (h : x + y < 2 ^ 31) : (a + b).Is (x + y : Nat) := by
  rw [Nat.cast_add]
  exact ha.add hb (by omega)

theorem Is.mul_nat (ha : a.Is x) (hb : b.Is y) (h : x * y < 2 ^ 31) : (a * b).Is (x * y : Nat) := by
  have hcast : ((x * y : Nat) : Int) = x * y := Nat.cast_mul x y
  rw [hcast]
  exact ha.mul hb (by omega)

theorem Is.fits_of_le (ha : a.Is x) {z : Nat} (h : z ≤ x) : -2 ^ 31 ≤ (z : Int) ∧ (z : Int) < 2 ^ 31 := by
  have hx : (x : Int) < 2 ^ 31 := ha.value ▸ Int32.toInt_lt a.val
  omega

theorem Is.div_nat (ha : a.Is x) (hb : b.Is y) : (a / b).Is (x / y : Nat) := by
  have hfits := ha.fits_of_le (Nat.div_le_self x y)
  rw [Int.ofNat_tdiv] at hfits ⊢
  exact ha.div hb hfits

theorem Is.mod_nat (ha : a.Is x) (hb : b.Is y) : (a % b).Is (x % y : Nat) := by
  have hfits := ha.fits_of_le (Nat.mod_le x y)
  rw [Int.ofNat_tmod] at hfits ⊢
  exact ha.mod hb hfits

/-- A position counted from one, taken back to zero. -/
theorem is_pred {i : Nat} (h : i + 1 < 2 ^ 31) : (ofNat (i + 1) - 1).Is i := by
  have hsub := (is_ofNat h).sub (is_lit 1 (by decide)) (by omega)
  rwa [show ((i + 1 : Nat) : Int) - (1 : Nat) = i by omega] at hsub

theorem Denotes.add_nat (ha : a.Denotes x) (hb : b.Denotes y) : (a + b).Denotes (x + y : Nat) := by
  rw [Nat.cast_add]
  exact ha.add hb

theorem Denotes.mul_nat (ha : a.Denotes x) (hb : b.Denotes y) : (a * b).Denotes (x * y : Nat) := by
  rw [Nat.cast_mul]
  exact ha.mul hb

end

end I32
