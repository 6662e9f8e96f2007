import Mathlib

/-!
# Bit fields of a 32-bit word

A word is packed from fields, each a value cut by a mask and shifted to its place. Reading a field back gives the value
modulo the width of the mask, as long as the places of the fields do not overlap. A register with a write mask in its
high half takes the bits of the low half that the mask enables.
-/

namespace UInt32

/-! ## Reading -/

/-- The `width` bits of a word from `shift` on. -/
def field (w : UInt32) (shift width : Nat) : Nat := w.toNat / 2 ^ shift % 2 ^ width

variable {w w' : UInt32} {shift width : Nat}

theorem testBit_field (w : UInt32) (shift width i : Nat) :
    (w.field shift width).testBit i = (decide (i < width) && w.toNat.testBit (i + shift)) := by
  rw [field, Nat.testBit_mod_two_pow, Nat.testBit_div_two_pow]

theorem field_lt (w : UInt32) (shift width : Nat) : w.field shift width < 2 ^ width :=
  Nat.mod_lt _ (Nat.two_pow_pos _)

theorem field_or (w w' : UInt32) (shift width : Nat) :
    (w ||| w').field shift width = w.field shift width ||| w'.field shift width := by
  apply Nat.eq_of_testBit_eq
  intro i
  simp only [testBit_field, Nat.testBit_or, UInt32.toNat_or, Bool.and_or_distrib_left]

/-- The bits of a mask at its place. -/
def region (mask shift : UInt32) : UInt32 := mask <<< shift

theorem testBit_region {mask s : UInt32} (hmask : mask.toNat = 2 ^ width - 1) (hs : s.toNat + width ≤ 32) (i : Nat)
    (hi : i < width) : (region mask s).toNat.testBit (i + s.toNat) = true := by
  have hlt : s.toNat < 32 := by omega
  rw [region, UInt32.toNat_shiftLeft, Nat.mod_eq_of_lt hlt, Nat.testBit_mod_two_pow, Nat.testBit_shiftLeft, hmask,
    Nat.testBit_two_pow_sub_one]
  simp [hi]
  omega

/-- A field only reads the bits of its place. -/
theorem field_and_region {mask s : UInt32} (hmask : mask.toNat = 2 ^ width - 1) (hs : s.toNat + width ≤ 32)
    (w : UInt32) : (w &&& region mask s).field s.toNat width = w.field s.toNat width := by
  apply Nat.eq_of_testBit_eq
  intro i
  rw [testBit_field, testBit_field, UInt32.toNat_and, Nat.testBit_and]
  by_cases hi : i < width
  · rw [testBit_region hmask hs i hi, Bool.and_true]
  · simp [hi]

/-- Words that agree on the place of a field have the same field. -/
theorem field_congr {mask s : UInt32} (hmask : mask.toNat = 2 ^ width - 1) (hs : s.toNat + width ≤ 32)
    (h : w &&& region mask s = w' &&& region mask s) : w.field s.toNat width = w'.field s.toNat width := by
  rw [← field_and_region hmask hs w, h, field_and_region hmask hs w']

theorem or_and (a b p : UInt32) : (a ||| b) &&& p = a &&& p ||| b &&& p := by
  rw [UInt32.and_comm, UInt32.and_comm a, UInt32.and_comm b]
  exact UInt32.toBitVec_inj.mp (BitVec.and_or_distrib_left ..)

/-! ## Packing -/

/-- A value, the mask that cuts it, and its place. -/
structure Field where
  value : UInt32
  mask : UInt32
  shift : UInt32

namespace Field

def bits (f : Field) : UInt32 := (f.value &&& f.mask) <<< f.shift

def place (f : Field) : UInt32 := region f.mask f.shift

end Field

def pack (fields : List Field) : UInt32 := fields.foldr (fun f w => f.bits ||| w) 0

/-- No two places share a bit. -/
def Separate (places : List UInt32) : Prop := places.Pairwise fun p q => p &&& q = 0

instance (places : List UInt32) : Decidable (Separate places) := inferInstanceAs (Decidable (places.Pairwise _))

theorem bits_and_place (f : Field) : f.bits &&& f.place = f.bits := by
  rw [Field.bits, Field.place, region, ← UInt32.shiftLeft_and, UInt32.and_assoc, UInt32.and_self]

theorem pack_append (fields fields' : List Field) : pack (fields ++ fields') = pack fields ||| pack fields' := by
  induction fields with
  | nil => simp [pack]
  | cons f fields ih =>
      change f.bits ||| pack (fields ++ fields') = f.bits ||| pack fields ||| pack fields'
      rw [ih, UInt32.or_assoc]

/-- Fields elsewhere do not touch a place. -/
theorem pack_and_eq_zero {fields : List Field} {p : UInt32} (h : ∀ g ∈ fields, g.place &&& p = 0) :
    pack fields &&& p = 0 := by
  induction fields with
  | nil => simp [pack]
  | cons f fields ih =>
      change (f.bits ||| pack fields) &&& p = 0
      rw [or_and, ih fun g hg => h g (List.mem_cons_of_mem _ hg), ← bits_and_place, UInt32.and_assoc,
        h f List.mem_cons_self, UInt32.and_zero, UInt32.or_zero]

theorem field_bits {f : Field} (hmask : f.mask.toNat = 2 ^ width - 1) (hs : f.shift.toNat + width ≤ 32) :
    f.bits.field f.shift.toNat width = f.value.toNat % 2 ^ width := by
  have hlt : 0 < width → f.shift.toNat < 32 := by omega
  apply Nat.eq_of_testBit_eq
  intro i
  rw [testBit_field, Nat.testBit_mod_two_pow]
  by_cases hi : i < width
  · rw [Field.bits, UInt32.toNat_shiftLeft, Nat.mod_eq_of_lt (hlt (by omega)), Nat.testBit_mod_two_pow,
      Nat.testBit_shiftLeft, UInt32.toNat_and, Nat.testBit_and, hmask, Nat.testBit_two_pow_sub_one]
    simp [hi]
    omega
  · simp [hi]

/-- What was packed is read back, cut to its width. -/
theorem field_pack {fields : List Field} (hsep : Separate (fields.map Field.place)) {f : Field} (hf : f ∈ fields)
    (hmask : f.mask.toNat = 2 ^ width - 1) (hs : f.shift.toNat + width ≤ 32) :
    (pack fields).field f.shift.toNat width = f.value.toNat % 2 ^ width := by
  obtain ⟨before, after, rfl⟩ := List.append_of_mem hf
  obtain ⟨-, hafter, hbefore⟩ := List.pairwise_append.mp (List.pairwise_map.mp hsep)
  have hpack : pack (before ++ f :: after) &&& f.place = f.bits &&& f.place := by
    rw [pack_append]
    change (pack before ||| (f.bits ||| pack after)) &&& f.place = _
    rw [or_and, or_and,
      pack_and_eq_zero fun g hg => hbefore g hg f List.mem_cons_self,
      pack_and_eq_zero fun g hg => (UInt32.and_comm _ _).trans ((List.pairwise_cons.mp hafter).1 g hg),
      UInt32.or_zero, UInt32.zero_or]
  rw [field_congr hmask hs hpack, field_bits hmask hs]

/-! ## Write masks -/

/-- A write to a register whose high half enables the bits of the low half. -/
def hiwordWrite (old value : UInt32) : UInt32 := (old &&& ~~~(value >>> 16)) ||| (value &&& (value >>> 16))

theorem not_and_of_disjoint {m p : UInt32} (h : m &&& p = 0) : ~~~m &&& p = p := by
  have hall : (m ||| ~~~m) &&& p = p := by rw [UInt32.or_not_self, UInt32.neg_one_and]
  rw [or_and, h, UInt32.zero_or] at hall
  exact hall

/-- Bits that are not enabled keep their value. -/
theorem hiwordWrite_and_of_disjoint {old value p : UInt32} (h : value >>> 16 &&& p = 0) :
    hiwordWrite old value &&& p = old &&& p := by
  rw [hiwordWrite, or_and, UInt32.and_assoc, UInt32.and_assoc, h, not_and_of_disjoint h, UInt32.and_zero, UInt32.or_zero]

/-- Enabled bits take the value written. -/
theorem hiwordWrite_and_of_enabled {old value p : UInt32} (h : value >>> 16 &&& p = p) :
    hiwordWrite old value &&& p = value &&& p := by
  have hnot : ~~~(value >>> 16) &&& p = 0 := by
    rw [← h, ← UInt32.and_assoc, UInt32.not_and_self, UInt32.zero_and]
  rw [hiwordWrite, or_and, UInt32.and_assoc, UInt32.and_assoc, h, hnot, UInt32.and_zero, UInt32.zero_or]

end UInt32
