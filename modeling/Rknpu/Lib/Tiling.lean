import Mathlib

/-!
# Consecutive blocks

A block is an interval of natural numbers, given by its first element and its size. Blocks tile an interval when
each starts where the one before it ended. This is the same as being consecutive, disjoint and together the whole
interval.
-/

structure Block where
  start : Nat
  size : Nat
deriving DecidableEq, Repr

namespace Block

/-- The elements of a block. -/
def elems (b : Block) : Set Nat := Set.Ico b.start (b.start + b.size)

/-- The elements of a block, in order. -/
def indices (b : Block) : List Nat := List.range' b.start b.size

/-- The blocks run from `lo` to `hi`, one after the other. -/
def Tiles : Nat → List Block → Nat → Prop
  | lo, [], hi => lo = hi
  | lo, b :: bs, hi => b.start = lo ∧ Tiles (lo + b.size) bs hi

variable {b : Block} {bs bs' : List Block} {lo mid hi i : Nat}

@[simp] theorem tiles_nil : Tiles lo [] hi ↔ lo = hi := Iff.rfl

@[simp] theorem tiles_cons : Tiles lo (b :: bs) hi ↔ b.start = lo ∧ Tiles (lo + b.size) bs hi := Iff.rfl

@[simp] theorem mem_elems : i ∈ b.elems ↔ b.start ≤ i ∧ i < b.start + b.size := Set.mem_Ico

theorem Tiles.append (h : Tiles lo bs mid) (h' : Tiles mid bs' hi) : Tiles lo (bs ++ bs') hi := by
  induction bs generalizing lo with
  | nil =>
      obtain rfl := tiles_nil.mp h
      exact h'
  | cons b bs ih => exact ⟨h.1, ih h.2⟩

theorem tiles_append_iff : Tiles lo (bs ++ bs') hi ↔ ∃ mid, Tiles lo bs mid ∧ Tiles mid bs' hi := by
  constructor
  · intro h
    induction bs generalizing lo with
    | nil => exact ⟨lo, rfl, h⟩
    | cons b bs ih =>
        obtain ⟨mid, hbs, hrest⟩ := ih h.2
        exact ⟨mid, ⟨h.1, hbs⟩, hrest⟩
  · rintro ⟨mid, hbs, hrest⟩
    exact hbs.append hrest

theorem Tiles.le (h : Tiles lo bs hi) : lo ≤ hi := by
  induction bs generalizing lo with
  | nil => exact Nat.le_of_eq h
  | cons b bs ih => exact (Nat.le_add_right _ _).trans (ih h.2)

/-- Read one block after the other, the elements come in order and each once. -/
theorem Tiles.flatMap_indices (h : Tiles lo bs hi) : bs.flatMap indices = List.range' lo (hi - lo) := by
  induction bs generalizing lo with
  | nil =>
      obtain rfl := tiles_nil.mp h
      simp
  | cons b bs ih =>
      obtain ⟨rfl, htail⟩ := h
      have hle := htail.le
      rw [List.flatMap_cons, ih htail, indices, List.range'_append_1]
      congr 1
      omega

theorem Tiles.sum_size (h : Tiles lo bs hi) : lo + (bs.map size).sum = hi := by
  induction bs generalizing lo with
  | nil => simpa using h
  | cons b bs ih =>
      rw [List.map_cons, List.sum_cons, ← Nat.add_assoc]
      exact ih h.2

theorem Tiles.exists_mem_iff (h : Tiles lo bs hi) : (∃ b ∈ bs, i ∈ b.elems) ↔ lo ≤ i ∧ i < hi := by
  have hle := h.le
  have hmem : i ∈ bs.flatMap indices ↔ ∃ b ∈ bs, i ∈ b.elems := by
    simp [indices, List.mem_flatMap]
  rw [← hmem, h.flatMap_indices, List.mem_range'_1]
  omega

theorem Tiles.pairwise_disjoint (h : Tiles lo bs hi) : bs.Pairwise fun b b' => Disjoint b.elems b'.elems := by
  induction bs generalizing lo with
  | nil => exact List.Pairwise.nil
  | cons b bs ih =>
      refine List.pairwise_cons.mpr ⟨fun b' hb' => ?_, ih h.2⟩
      rw [Set.disjoint_left]
      intro i hi hi'
      -- What follows starts at the end of `b`.
      have hlow := (h.2.exists_mem_iff.mp ⟨b', hb', hi'⟩).1
      have hhigh := (mem_elems.mp hi).2
      rw [h.1] at hhigh
      omega

/-- Each block starts at the end of the one before it. -/
def Abuts (b b' : Block) : Prop := b'.start = b.start + b.size

theorem Tiles.isChain (h : Tiles lo bs hi) : bs.IsChain Abuts := by
  induction bs generalizing lo with
  | nil => exact .nil
  | cons b bs ih =>
      cases bs with
      | nil => exact .singleton b
      | cons b' bs =>
          refine .cons_cons ?_ (ih h.2)
          rw [Abuts, h.2.1, h.1]

theorem tiles_of_isChain (h : (b :: bs).IsChain Abuts) : ∃ hi, Tiles b.start (b :: bs) hi := by
  induction bs generalizing b with
  | nil => exact ⟨_, rfl, rfl⟩
  | cons b' bs ih =>
      obtain ⟨habut, htail⟩ := List.isChain_cons_cons.mp h
      obtain ⟨hi, htiles⟩ := ih htail
      rw [habut] at htiles
      exact ⟨hi, rfl, htiles⟩

/-- Blocks tile the numbers below `n` exactly when they are consecutive and their disjoint union is that interval. -/
theorem tiles_iff {n : Nat} (hn : 0 < n) :
    Tiles 0 bs n ↔
      bs.IsChain Abuts ∧ (bs.Pairwise fun b b' => Disjoint b.elems b'.elems) ∧ ⋃ b ∈ bs, b.elems = Set.Iio n := by
  constructor
  · intro h
    refine ⟨h.isChain, h.pairwise_disjoint, ?_⟩
    ext i
    simp only [Set.mem_iUnion, exists_prop, Set.mem_Iio]
    rw [h.exists_mem_iff]
    exact and_iff_right (Nat.zero_le i)
  · rintro ⟨hchain, -, hunion⟩
    have hcover : ∀ i, (∃ b ∈ bs, i ∈ b.elems) ↔ i < n := by
      intro i
      rw [← Set.mem_Iio, ← hunion]
      simp only [Set.mem_iUnion, exists_prop]
    cases bs with
    | nil => simpa using hcover 0 |>.mpr hn
    | cons b bs =>
        obtain ⟨hi, htiles⟩ := tiles_of_isChain hchain
        have hsame : ∀ i, (b.start ≤ i ∧ i < hi) ↔ i < n := fun i => by rw [← htiles.exists_mem_iff, hcover]
        have hstart : b.start = 0 := Nat.le_zero.mp ((hsame 0).mpr hn).1
        have hhi : hi = n := by
          have hfirst := (hsame (n - 1)).mpr (by omega)
          by_contra hne
          have hlast := (hsame n).mp ⟨by omega, by omega⟩
          omega
        rw [hstart, hhi] at htiles
        exact htiles

/-! ## Even splits -/

/-- Block `l` of `n` elements split into `u` blocks, the larger ones first. -/
def even (n u l : Nat) : Block where
  start := l * (n / u) + min l (n % u)
  size := n / u + if l < n % u then 1 else 0

variable {n u l l' : Nat}

theorem even_succ (n u l : Nat) : (even n u (l + 1)).start = (even n u l).start + (even n u l).size := by
  simp only [even, Nat.add_mul, Nat.one_mul]
  split <;> omega

theorem tiles_even_range (n u l : Nat) : Tiles 0 ((List.range l).map (even n u)) (even n u l).start := by
  induction l with
  | zero => simp [even]
  | succ l ih =>
      rw [List.range_succ, List.map_append, even_succ]
      exact ih.append ⟨rfl, rfl⟩

theorem even_start_self (hu : 0 < u) : (even n u u).start = n := by
  have hmod := Nat.mod_lt n hu
  have hdiv := Nat.div_add_mod n u
  simp only [even]
  omega

theorem even_start_le (hu : 0 < u) (hl : l ≤ u) : (even n u l).start ≤ n := by
  have hmono : Monotone fun l => (even n u l).start := monotone_nat_of_le_succ fun l => by
    rw [even_succ]
    exact Nat.le_add_right _ _
  calc (even n u l).start ≤ (even n u u).start := hmono hl
    _ = n := even_start_self hu

/-- Each block is the ceiling of what is left over the blocks that are left. -/
theorem even_size_eq (hl : l < u) : (n - (even n u l).start + (u - l) - 1) / (u - l) = (even n u l).size := by
  have hmod := Nat.mod_lt n (Nat.zero_lt_of_lt hl)
  have hdiv := Nat.div_add_mod n u
  have hsplit : u * (n / u) = (u - l) * (n / u) + l * (n / u) := by
    rw [← Nat.add_mul, Nat.sub_add_cancel hl.le]
  have hrest : n - (even n u l).start + (u - l) - 1 =
      n % u - min l (n % u) + (u - l) - 1 + (u - l) * (n / u) := by
    simp only [even]
    omega
  rw [hrest, Nat.add_mul_div_left _ _ (by omega)]
  simp only [even]
  split
  · rw [Nat.div_eq_of_lt_le (show 1 * (u - l) ≤ _ by omega) (by omega)]
    omega
  · rw [Nat.div_eq_of_lt (by omega)]
    omega

theorem even_size_le (n u l l' : Nat) : (even n u l).size ≤ (even n u l').size + 1 := by
  simp only [even]
  split <;> omega

theorem even_size_pos (hu : 0 < u) (hn : u ≤ n) (l : Nat) : 0 < (even n u l).size :=
  Nat.add_pos_left (Nat.div_pos hn hu) _

end Block
