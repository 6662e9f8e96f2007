import Rknpu.Task.MatMul

/-!
# Tiled layouts of the operands

`set_a` stores features in groups of 16 channels and `set_b` stores weights in tiles of 32 kernels by 32 channels. The
buffers have room for the elements only, not for tiles that are not full. The offsets are worked out over the natural
numbers first, with positions counted from zero.
-/

namespace Rknpu.Task

/-- The stores fit, stay inside a buffer of `len` elements, and are to different places. -/
structure SafeStores (stores : List Store) (len : Nat) : Prop where
  fits : ∀ st ∈ stores, st.idx.overflow = false ∧ st.src.overflow = false
  inside : ∀ st ∈ stores, 0 ≤ st.idx.val.toInt ∧ st.idx.val.toInt < len
  distinct : (stores.map fun st => st.idx.val.toInt).Nodup

/-! ## Offsets over the natural numbers -/

def featureOffset (m i j : Nat) : Nat := j / 16 * m * 1 * 16 + 16 * (i * 1 + 0) + j % 16

def weightOffset (k i j : Nat) : Nat := j / 32 * 32 * 32 + i / 32 * 32 * k + (j % 32 + i % 32 * 32)

/-- Every element of a matrix has a place inside `rows * cols`. -/
def Inside (rows cols : Nat) (offset : Nat → Nat → Nat) : Prop :=
  ∀ i < rows, ∀ j < cols, offset i j < rows * cols

/-- No two elements share a place. -/
def Injective (rows cols : Nat) (offset : Nat → Nat → Nat) : Prop :=
  ∀ i < rows, ∀ j < cols, ∀ i' < rows, ∀ j' < cols, offset i j = offset i' j' → i = i' ∧ j = j'

theorem digits_unique {b x y d e : Nat} (hd : d < b) (he : e < b) (h : b * x + d = b * y + e) : x = y ∧ d = e := by
  have hmod : d = e := by
    have := congrArg (· % b) h
    simpa [Nat.mul_add_mod, Nat.mod_eq_of_lt hd, Nat.mod_eq_of_lt he] using this
  subst hmod
  exact ⟨Nat.eq_of_mul_eq_mul_left (Nat.zero_lt_of_lt hd) (Nat.add_right_cancel h), rfl⟩

section feature

variable {m k : Nat}

theorem featureOffset_eq (m i j : Nat) : featureOffset m i j = 16 * (m * (j / 16) + i) + j % 16 := by
  unfold featureOffset
  ring

theorem feature_injective : Injective m k (featureOffset m) := by
  intro i hi j _ i' hi' j' _ h
  rw [featureOffset_eq, featureOffset_eq] at h
  obtain ⟨hplane, hchannel⟩ := digits_unique (Nat.mod_lt _ (by decide)) (Nat.mod_lt _ (by decide)) h
  obtain ⟨hgroup, hrow⟩ := digits_unique hi hi' hplane
  exact ⟨hrow, by omega⟩

/-- A group that is not full reaches beyond the buffer, unless there is only one row. -/
theorem feature_inside_iff (hm : 0 < m) (hk : 0 < k) : Inside m k (featureOffset m) ↔ m = 1 ∨ 16 ∣ k := by
  constructor
  · intro h
    by_contra hno
    rw [not_or] at hno
    have hlast := h (m - 1) (by omega) (k - 1) (by omega)
    rw [featureOffset_eq] at hlast
    have hdiv : (k - 1) / 16 = k / 16 := by omega
    have hsplit : m * k = 16 * (m * (k / 16)) + m * (k % 16) := by
      conv_lhs => rw [← Nat.div_add_mod k 16]
      ring
    have hrest : m * (k % 16) ≤ 16 * (m - 1) + (k % 16 - 1) := by
      obtain ⟨m', rfl⟩ : ∃ m', m = m' + 2 := ⟨m - 2, by omega⟩
      have hr : k % 16 ≤ 15 := by omega
      have hle : m' * (k % 16) ≤ m' * 15 := Nat.mul_le_mul_left _ hr
      have hexpand : (m' + 2) * (k % 16) = m' * (k % 16) + 2 * (k % 16) := Nat.add_mul ..
      omega
    rw [hdiv] at hlast
    omega
  · rintro (rfl | ⟨q, rfl⟩) i hi j hj
    · rw [featureOffset_eq]
      omega
    · rw [featureOffset_eq]
      have hq : j / 16 + 1 ≤ q := by omega
      have hle : m * (j / 16 + 1) ≤ m * q := Nat.mul_le_mul_left _ hq
      have hexpand : m * (j / 16 + 1) = m * (j / 16) + m := Nat.mul_succ ..
      have hlen : m * (16 * q) = 16 * (m * q) := by ring
      omega

end feature

section weight

variable {k n : Nat}

theorem weightOffset_eq (q i j : Nat) :
    weightOffset (32 * q) i j = 32 * (32 * (q * (i / 32) + j / 32) + i % 32) + j % 32 := by
  unfold weightOffset
  ring

/-- Full tiles of channels never overlap. -/
theorem weight_injective_of_full {q : Nat} : Injective n (32 * q) (weightOffset (32 * q)) := by
  intro i _ j hj i' _ j' hj' h
  rw [weightOffset_eq, weightOffset_eq] at h
  obtain ⟨htile, hchannel⟩ := digits_unique (Nat.mod_lt _ (by decide)) (Nat.mod_lt _ (by decide)) h
  obtain ⟨hpage, hkernel⟩ := digits_unique (Nat.mod_lt _ (by decide)) (Nat.mod_lt _ (by decide)) htile
  obtain ⟨hkpage, hcpage⟩ := digits_unique (by omega) (by omega) hpage
  exact ⟨by omega, by omega⟩

/-- The shapes whose tiles fill the buffer: full tiles, tiles of one page of channels, or a single short kernel. -/
def WeightTiles (k n : Nat) : Prop := 32 ∣ k ∧ (32 ∣ n ∨ k = 32) ∨ n = 1 ∧ k ≤ 32

theorem weight_inside_of_tiles (h : WeightTiles k n) : Inside n k (weightOffset k) := by
  intro i hi j hj
  rcases h with ⟨⟨q, rfl⟩, ⟨r, rfl⟩ | hq⟩ | ⟨rfl, hk⟩
  · rw [weightOffset_eq]
    have hrow : i / 32 + 1 ≤ r := by omega
    have hle : q * (i / 32 + 1) ≤ q * r := Nat.mul_le_mul_left _ hrow
    have hexpand : q * (i / 32 + 1) = q * (i / 32) + q := Nat.mul_succ ..
    have hlen : 32 * r * (32 * q) = 1024 * (q * r) := by ring
    omega
  · obtain rfl : q = 1 := by omega
    rw [weightOffset_eq]
    omega
  · obtain rfl : i = 0 := by omega
    simp only [weightOffset]
    omega

theorem weight_injective_of_tiles (h : WeightTiles k n) : Injective n k (weightOffset k) := by
  rcases h with ⟨⟨q, rfl⟩, -⟩ | ⟨rfl, hk⟩
  · exact weight_injective_of_full
  · intro i hi j hj i' hi' j' hj' h
    obtain rfl : i = 0 := by omega
    obtain rfl : i' = 0 := by omega
    simp only [weightOffset] at h
    omega

/-- With full tiles of channels, a last page of kernels that is not full reaches beyond the buffer. -/
theorem weight_outside_of_rows {q : Nat} (hn : 0 < n) (hq : 2 ≤ q) (hr : n % 32 ≠ 0) :
    ¬ Inside n (32 * q) (weightOffset (32 * q)) := by
  intro h
  have hlast := h (n - 1) (by omega) (32 * q - 1) (by omega)
  rw [weightOffset_eq] at hlast
  have hpage : (n - 1) / 32 = n / 32 := by omega
  have hlen : n * (32 * q) = 1024 * (q * (n / 32)) + 32 * (q * (n % 32)) := by
    conv_lhs => rw [← Nat.div_add_mod n 32]
    ring
  have hrest : q * (n % 32) ≤ 32 * (q - 1) + (n % 32 - 1) := by
    obtain ⟨q', rfl⟩ : ∃ q', q = q' + 2 := ⟨q - 2, by omega⟩
    have hle : q' * (n % 32) ≤ q' * 31 := Nat.mul_le_mul_left _ (by omega)
    have hexpand : (q' + 2) * (n % 32) = q' * (n % 32) + 2 * (n % 32) := Nat.add_mul ..
    omega
  rw [hpage] at hlast
  omega

/-- A tile of channels that is not full reaches beyond the buffer, unless there is one short page of channels. -/
theorem weight_outside_of_channels (hn : 0 < n) (hs : k % 32 ≠ 0) (h : Inside n k (weightOffset k)) :
    k < 32 ∧ (n - 1) % 32 = 0 := by
  have hlast := h (n - 1) (by omega) (k - 1) (by omega)
  have hdiv : (k - 1) / 32 = k / 32 := by omega
  have hmod : (k - 1) % 32 = k % 32 - 1 := by omega
  rw [weightOffset, hdiv, hmod] at hlast
  -- `t` is the position of the last kernel in its page.
  obtain ⟨t, ht⟩ : ∃ t, t = (n - 1) % 32 := ⟨_, rfl⟩
  have hlen : n * k = (n - 1) / 32 * 32 * k + (t + 1) * k := by
    rw [← Nat.add_mul]
    congr 1
    omega
  have hpage : (t + 1) * k = 32 * (t * (k / 32)) + 32 * (k / 32) + t * (k % 32) + k % 32 := by
    conv_lhs => rw [← Nat.div_add_mod k 32]
    ring
  have hrow : t * (k / 32) ≤ 31 * (k / 32) := Nat.mul_le_mul_right _ (by omega)
  have hcol : t * (k % 32) ≤ t * 31 := Nat.mul_le_mul_left _ (by omega)
  have hzero : t = 0 := by omega
  rw [hzero, Nat.zero_mul, Nat.zero_mul] at hpage
  rw [hzero] at hlen
  constructor <;> omega

/-- The offsets of the weights are inside and distinct exactly for these shapes. -/
theorem weight_safe_iff (hk : 0 < k) (hn : 0 < n) :
    Inside n k (weightOffset k) ∧ Injective n k (weightOffset k) ↔ WeightTiles k n := by
  constructor
  · rintro ⟨hinside, hinj⟩
    by_cases hs : k % 32 = 0
    · obtain ⟨q, rfl⟩ := Nat.dvd_of_mod_eq_zero hs
      refine .inl ⟨Dvd.intro _ rfl, ?_⟩
      by_contra hno
      rw [not_or] at hno
      exact weight_outside_of_rows hn (by omega) (fun hr => hno.1 (Nat.dvd_of_mod_eq_zero hr)) hinside
    · obtain ⟨hk32, hpage⟩ := weight_outside_of_channels hn hs hinside
      refine .inr ⟨?_, hk32.le⟩
      by_contra hne
      -- The second page of kernels starts at `32 * k`, in the middle of the first.
      have hcollide := hinj k (by omega) 0 hk 32 (by omega) 0 hk (by
        rw [weightOffset, weightOffset, Nat.div_eq_of_lt hk32, Nat.mod_eq_of_lt hk32]
        omega)
      omega
  · exact fun h => ⟨weight_inside_of_tiles h, weight_injective_of_tiles h⟩

end weight

/-! ## The stores -/

/-- All elements of a matrix, row by row. -/
def elements (rows cols : Nat) : List (Nat × Nat) := (List.range rows).product (List.range cols)

theorem mem_elements {rows cols : Nat} {p : Nat × Nat} : p ∈ elements rows cols ↔ p.1 < rows ∧ p.2 < cols := by
  obtain ⟨i, j⟩ := p
  rw [elements]
  exact List.pair_mem_product.trans (by rw [List.mem_range, List.mem_range])

theorem flatMap_eq_map_elements {α : Type} (rows cols : Nat) (f : Nat → Nat → α) :
    ((List.range rows).flatMap fun i => (List.range cols).map (f i)) =
      (elements rows cols).map fun p => f p.1 p.2 := by
  simp [elements, List.product, List.map_flatMap, Function.comp_def]

/-- What the two store loops have in common: they go through a matrix row by row, and an index is its offset as long as
nothing overflows, which an offset within 31 bits ensures. -/
structure Walks (rows cols : Nat) (offset : Nat → Nat → Nat) (store : Nat → Nat → Store) : Prop where
  idx : ∀ i < rows, ∀ j < cols, (store i j).idx.Denotes (offset i j)
  idxFits : ∀ i < rows, ∀ j < cols, offset i j < 2 ^ 31 → (store i j).idx.overflow = false
  src : ∀ i < rows, ∀ j < cols, (store i j).src.Denotes (i * cols + j : Nat)
  srcFits : ∀ i < rows, ∀ j < cols, i * cols + j < 2 ^ 31 → (store i j).src.overflow = false

theorem Walks.safe_iff {rows cols : Nat} {offset : Nat → Nat → Nat} {store : Nat → Nat → Store}
    (h : Walks rows cols offset store) (hrows : 0 < rows) (hcols : 0 < cols) :
    SafeStores ((elements rows cols).map fun p => store p.1 p.2) (rows * cols) ↔
      (Inside rows cols offset ∧ Injective rows cols offset) ∧ rows * cols ≤ 2 ^ 31 := by
  have hrowmajor : ∀ i < rows, ∀ j < cols, i * cols + j < rows * cols := by
    intro i hi j hj
    calc i * cols + j < i * cols + cols := by omega
      _ = (i + 1) * cols := (Nat.succ_mul i cols).symm
      _ ≤ rows * cols := Nat.mul_le_mul_right _ hi
  constructor
  · rintro ⟨hfits, hinside, hdistinct⟩
    have hstore : ∀ i < rows, ∀ j < cols, store i j ∈ (elements rows cols).map fun p => store p.1 p.2 :=
      fun i hi j hj => List.mem_map.mpr ⟨(i, j), mem_elements.mpr ⟨hi, hj⟩, rfl⟩
    have hidx : ∀ i < rows, ∀ j < cols, (store i j).idx.val.toInt = offset i j :=
      fun i hi j hj => h.idx i hi j hj (hfits _ (hstore i hi j hj)).1
    have hsrc : ∀ i < rows, ∀ j < cols, (store i j).src.val.toInt = (i * cols + j : Nat) :=
      fun i hi j hj => h.src i hi j hj (hfits _ (hstore i hi j hj)).2
    refine ⟨⟨fun i hi j hj => ?_, fun i hi j hj i' hi' j' hj' heq => ?_⟩, ?_⟩
    · have hlt := (hinside _ (hstore i hi j hj)).2
      rw [hidx i hi j hj] at hlt
      exact_mod_cast hlt
    · -- Equal stores have the same source, which is a position of the matrix.
      have hsame := List.inj_on_of_nodup_map hdistinct (hstore i hi j hj) (hstore i' hi' j' hj')
        (by rw [hidx i hi j hj, hidx i' hi' j' hj', heq])
      have hpos : i * cols + j = i' * cols + j' := by
        have := congrArg (fun st => st.src.val.toInt) hsame
        rw [hsrc i hi j hj, hsrc i' hi' j' hj'] at this
        exact_mod_cast this
      rw [Nat.mul_comm i, Nat.mul_comm i'] at hpos
      exact digits_unique hj hj' hpos
    · have hlast := hsrc (rows - 1) (by omega) (cols - 1) (by omega)
      have hmax := Int32.toInt_lt (store (rows - 1) (cols - 1)).src.val
      rw [hlast] at hmax
      have hsplit : rows * cols = (rows - 1) * cols + cols := by
        rw [← Nat.succ_mul, Nat.succ_eq_add_one, Nat.sub_add_cancel hrows]
      omega
  · rintro ⟨⟨hinside, hinj⟩, hlen⟩
    have hidx : ∀ i < rows, ∀ j < cols, (store i j).idx.Is (offset i j) := fun i hi j hj =>
      (h.idx i hi j hj).is (h.idxFits i hi j hj (lt_of_lt_of_le (hinside i hi j hj) hlen))
    refine ⟨?_, ?_, ?_⟩
    · intro st hst
      obtain ⟨⟨i, j⟩, hp, rfl⟩ := List.mem_map.mp hst
      obtain ⟨hi, hj⟩ := mem_elements.mp hp
      exact ⟨(hidx i hi j hj).fits, h.srcFits i hi j hj (lt_of_lt_of_le (hrowmajor i hi j hj) hlen)⟩
    · intro st hst
      obtain ⟨⟨i, j⟩, hp, rfl⟩ := List.mem_map.mp hst
      obtain ⟨hi, hj⟩ := mem_elements.mp hp
      dsimp only
      rw [(hidx i hi j hj).value]
      exact ⟨Int.natCast_nonneg _, by exact_mod_cast hinside i hi j hj⟩
    · rw [List.map_map]
      refine List.Nodup.map_on ?_ (List.nodup_range.product List.nodup_range)
      intro p hp p' hp' heq
      obtain ⟨hi, hj⟩ := mem_elements.mp hp
      obtain ⟨hi', hj'⟩ := mem_elements.mp hp'
      simp only [Function.comp_apply] at heq
      rw [(hidx _ hi _ hj).value, (hidx _ hi' _ hj').value] at heq
      obtain ⟨h₁, h₂⟩ := hinj _ hi _ hj _ hi' _ hj' (by exact_mod_cast heq)
      exact Prod.ext h₁ h₂

section walks

variable {rows cols i j : Nat}

theorem src_denotes (hi : i + 1 < 2 ^ 31) (hj : j + 1 < 2 ^ 31) (hcols : cols < 2 ^ 31) :
    ((I32.ofNat (i + 1) - 1) * I32.ofNat cols + (I32.ofNat (j + 1) - 1)).Denotes (i * cols + j : Nat) :=
  ((I32.is_pred hi).denotes.mul_nat (I32.is_ofNat hcols).denotes).add_nat (I32.is_pred hj).denotes

theorem src_fits (hi : i + 1 < 2 ^ 31) (hj : j + 1 < 2 ^ 31) (hcols : cols < 2 ^ 31) (h : i * cols + j < 2 ^ 31) :
    ((I32.ofNat (i + 1) - 1) * I32.ofNat cols + (I32.ofNat (j + 1) - 1)).overflow = false :=
  (((I32.is_pred hi).mul_nat (I32.is_ofNat hcols) (by omega)).add_nat (I32.is_pred hj) h).fits

/-- The row part of a feature offset. -/
theorem feature_row (hi : i + 1 < 2 ^ 16) :
    (16 * ((I32.ofNat (i + 1) - 1) * 1 + (1 - 1)) : I32).Is (16 * (i * 1 + 0) : Nat) :=
  (I32.is_lit 16 (by decide)).mul_nat
    (((I32.is_pred (by omega)).mul_nat (I32.is_lit 1 (by decide)) (by omega)).add_nat
      (I32.is_pred (i := 0) (by decide)) (by omega)) (by omega)

theorem walks_feature (hrows : rows < 2 ^ 16) (hcols : cols < 2 ^ 16) :
    Walks rows cols (featureOffset rows) fun i j =>
      ⟨featureData (.ofNat cols) (.ofNat rows) 1 16 (.ofNat (j + 1)) (.ofNat (i + 1)) 1,
        (.ofNat (i + 1) - 1) * .ofNat cols + (.ofNat (j + 1) - 1)⟩ := by
  have hplane : ∀ j < cols, ((I32.ofNat (j + 1) - 1) / 16).Is (j / 16 : Nat) :=
    fun j hj => (I32.is_pred (by omega)).div_nat (I32.is_lit 16 (by decide))
  have hchannel : ∀ j < cols, ((I32.ofNat (j + 1) - 1) % 16).Is (j % 16 : Nat) :=
    fun j hj => (I32.is_pred (by omega)).mod_nat (I32.is_lit 16 (by decide))
  have hm : (I32.ofNat rows).Is rows := I32.is_ofNat (by omega)
  refine ⟨fun i hi j hj => ?_, fun i hi j hj h => ?_, fun i hi j hj => src_denotes (by omega) (by omega) (by omega),
    fun i hi j hj h => src_fits (by omega) (by omega) (by omega) h⟩
  · have hgroup := (((hplane j hj).denotes.mul_nat hm.denotes).mul_nat (I32.is_lit 1 (by decide)).denotes).mul_nat
      (I32.is_lit 16 (by decide)).denotes
    exact (hgroup.add_nat (feature_row (by omega)).denotes).add_nat (hchannel j hj).denotes
  · simp only [featureOffset] at h
    have hgroup := (((hplane j hj).mul_nat hm (by omega)).mul_nat (I32.is_lit 1 (by decide)) (by omega)).mul_nat
      (I32.is_lit 16 (by decide)) (by omega)
    exact ((hgroup.add_nat (feature_row (by omega)) (by omega)).add_nat (hchannel j hj) h).fits

theorem walks_weight (hrows : rows < 2 ^ 16) (hcols : cols < 2 ^ 16) :
    Walks rows cols (weightOffset cols) fun i j =>
      ⟨weightInt8 (.ofNat cols) (.ofNat (i + 1)) (.ofNat (j + 1)),
        (.ofNat (i + 1) - 1) * .ofNat cols + (.ofNat (j + 1) - 1)⟩ := by
  have hlit : (32 : I32).Is (32 : Nat) := I32.is_lit 32 (by decide)
  have hdiv : ∀ x < 2 ^ 16, ((I32.ofNat (x + 1) - 1) / 32).Is (x / 32 : Nat) :=
    fun x hx => (I32.is_pred (by omega)).div_nat hlit
  have hmod : ∀ x < 2 ^ 16, ((I32.ofNat (x + 1) - 1) % 32).Is (x % 32 : Nat) :=
    fun x hx => (I32.is_pred (by omega)).mod_nat hlit
  have hk : (I32.ofNat cols).Is cols := I32.is_ofNat (by omega)
  -- The position inside the tile always fits.
  have htile : ∀ i < rows, ∀ j < cols,
      ((I32.ofNat (j + 1) - 1) % 32 + (I32.ofNat (i + 1) - 1) % 32 * 32).Is (j % 32 + i % 32 * 32 : Nat) :=
    fun i hi j hj => (hmod j (by omega)).add_nat ((hmod i (by omega)).mul_nat hlit (by omega)) (by omega)
  have hchannels : ∀ j < cols, ((I32.ofNat (j + 1) - 1) / 32 * 32 * 32).Is (j / 32 * 32 * 32 : Nat) :=
    fun j hj => ((hdiv j (by omega)).mul_nat hlit (by omega)).mul_nat hlit (by omega)
  have hkernels : ∀ i < rows, ((I32.ofNat (i + 1) - 1) / 32 * 32).Is (i / 32 * 32 : Nat) :=
    fun i hi => (hdiv i (by omega)).mul_nat hlit (by omega)
  refine ⟨fun i hi j hj => ?_, fun i hi j hj h => ?_, fun i hi j hj => src_denotes (by omega) (by omega) (by omega),
    fun i hi j hj h => src_fits (by omega) (by omega) (by omega) h⟩
  · exact ((hchannels j hj).denotes.add_nat ((hkernels i hi).denotes.mul_nat hk.denotes)).add_nat
      (htile i hi j hj).denotes
  · simp only [weightOffset] at h
    exact (((hchannels j hj).add_nat ((hkernels i hi).mul_nat hk (by omega)) (by omega)).add_nat (htile i hi j hj)
      h).fits

end walks

/-! ## Both operands -/

theorem setA_safe_iff {m k n : Nat} (hm : 1 ≤ m ∧ m ≤ 65535) (hk : 1 ≤ k ∧ k ≤ 65535) {input weight output : UInt64}
    {a : List Int8} {stores : List Store} (h : (MatMul.new m k n input weight output).setA a = some stores) :
    SafeStores stores (m * k) ↔ (m = 1 ∨ 16 ∣ k) ∧ m * k ≤ 2 ^ 31 := by
  have hm' : (UInt16.ofNat m).toNat = m := UInt16.toNat_ofNat_of_lt' (show m < 2 ^ 16 by omega)
  have hk' : (UInt16.ofNat k).toNat = k := UInt16.toNat_ofNat_of_lt' (show k < 2 ^ 16 by omega)
  simp only [MatMul.setA, MatMul.new, hm', hk'] at h
  split at h
  · cases h
    rw [flatMap_eq_map_elements, (walks_feature (by omega) (by omega)).safe_iff hm.1 hk.1,
      feature_inside_iff hm.1 hk.1, and_iff_left feature_injective]
  · cases h

theorem setB_safe_iff {m k n : Nat} (hk : 1 ≤ k ∧ k ≤ 65535) (hn : 1 ≤ n ∧ n ≤ 65535) {input weight output : UInt64}
    {b : List Int8} {stores : List Store} (h : (MatMul.new m k n input weight output).setB b = some stores) :
    SafeStores stores (k * n) ↔ WeightTiles k n ∧ k * n ≤ 2 ^ 31 := by
  have hk' : (UInt16.ofNat k).toNat = k := UInt16.toNat_ofNat_of_lt' (show k < 2 ^ 16 by omega)
  have hn' : (UInt16.ofNat n).toNat = n := UInt16.toNat_ofNat_of_lt' (show n < 2 ^ 16 by omega)
  simp only [MatMul.setB, MatMul.new, hk', hn'] at h
  split at h
  · cases h
    rw [Nat.mul_comm k n, flatMap_eq_map_elements, (walks_weight (by omega) (by omega)).safe_iff hn.1 hk.1,
      weight_safe_iff hk.1 hn.1]
  · cases h

/-- The stores of both operands are safe exactly for shapes whose tiles fill the buffers and whose offsets fit. -/
theorem operand_stores_safe_iff {m k n : Nat} (hm : 1 ≤ m ∧ m ≤ 65535) (hk : 1 ≤ k ∧ k ≤ 65535)
    (hn : 1 ≤ n ∧ n ≤ 65535) (input weight output : UInt64) {a b : List Int8} (ha : a.length = m * k)
    (hb : b.length = k * n) : ∃ storesA storesB, (MatMul.new m k n input weight output).setA a = some storesA ∧
      (MatMul.new m k n input weight output).setB b = some storesB ∧
      (SafeStores storesA (MatMul.new m k n input weight output).inputLen ∧
          SafeStores storesB (MatMul.new m k n input weight output).weightLen ↔
        (m = 1 ∨ 16 ∣ k) ∧ WeightTiles k n ∧ m * k ≤ 2 ^ 31 ∧ k * n ≤ 2 ^ 31) := by
  have hm' : (UInt16.ofNat m).toNat = m := UInt16.toNat_ofNat_of_lt' (show m < 2 ^ 16 by omega)
  have hk' : (UInt16.ofNat k).toNat = k := UInt16.toNat_ofNat_of_lt' (show k < 2 ^ 16 by omega)
  have hn' : (UInt16.ofNat n).toNat = n := UInt16.toNat_ofNat_of_lt' (show n < 2 ^ 16 by omega)
  have hsetA : ∃ stores, (MatMul.new m k n input weight output).setA a = some stores := by
    simp [MatMul.setA, MatMul.new, hm', hk', ha]
  have hsetB : ∃ stores, (MatMul.new m k n input weight output).setB b = some stores := by
    simp [MatMul.setB, MatMul.new, hk', hn', hb]
  obtain ⟨storesA, hA⟩ := hsetA
  obtain ⟨storesB, hB⟩ := hsetB
  refine ⟨storesA, storesB, hA, hB, ?_⟩
  simp only [MatMul.new, Nat.mul_one]
  rw [setA_safe_iff hm hk hA, setB_safe_iff hk hn hB]
  tauto

theorem operand_stores_safe_iff_test : ∃ storesA storesB,
    (MatMul.new 16 32 32 0 0 0).setA (List.replicate 512 0) = some storesA ∧
    (MatMul.new 16 32 32 0 0 0).setB (List.replicate 1024 0) = some storesB ∧
    SafeStores storesA 512 ∧ SafeStores storesB 1024 := by
  obtain ⟨storesA, storesB, hA, hB, hsafe⟩ := @operand_stores_safe_iff 16 32 32 (by decide) (by decide) (by decide) 0 0 0
    (List.replicate 512 0) (List.replicate 1024 0) List.length_replicate List.length_replicate
  exact ⟨storesA, storesB, hA, hB,
    hsafe.mpr ⟨.inr (by decide), .inl ⟨by decide, .inr rfl⟩, by decide, by decide⟩⟩

/-- With two rows of one channel, the second row is stored at 16 in a buffer of two elements. -/
theorem operand_stores_outside : ∃ stores, (MatMul.new 2 1 1 0 0 0).setA [0, 0] = some stores ∧
    ¬ SafeStores stores (MatMul.new 2 1 1 0 0 0).inputLen := by
  refine ⟨_, rfl, fun h => ?_⟩
  have hlt := (h.inside _ (List.mem_of_getElem? (i := 1) rfl)).2
  revert hlt
  decide

end Rknpu.Task
