import Rknpu.Task.MatMul

/-!
# What the command words say

The words of `fill_regcmd` are read back by opcode, register and bit field. The fields of a register never overlap, so a
field holds its descriptor value cut to its width. The guard on the CBUF forms its product in 16 bits, and nothing else
bounds the dimensions.
-/

namespace Rknpu.Task

open UInt32 (Field)

/-! ## Reading words -/

/-- The value that the first write to a register carries. -/
def registerValue (words : List UInt64) (op reg : UInt32) : Option UInt32 :=
  (words.find? fun w => w.toNat / 2 ^ 48 == op.toNat && w.toNat % 2 ^ 16 == reg.toNat).map fun w =>
    UInt32.ofNat (w.toNat / 2 ^ 16)

/-- A field of a register. -/
def decode (words : List UInt64) (op reg : UInt32) (shift width : Nat) : Option Nat :=
  (registerValue words op reg).map fun value => value.field shift width

theorem toNat_npuOp {op value reg : UInt32} (hop : op.toNat < 2 ^ 16) (hreg : reg.toNat < 2 ^ 16) :
    (npuOp op value reg).toNat = 2 ^ 48 * op.toNat + (2 ^ 16 * value.toNat + reg.toNat) := by
  have hvalue := value.toNat_lt
  have hlow : (2 ^ 16 * value.toNat ||| reg.toNat) = 2 ^ 16 * value.toNat + reg.toNat :=
    (Nat.two_pow_add_eq_or_of_lt hreg _).symm
  have hhigh : (2 ^ 48 * op.toNat ||| (2 ^ 16 * value.toNat + reg.toNat)) =
      2 ^ 48 * op.toNat + (2 ^ 16 * value.toNat + reg.toNat) :=
    (Nat.two_pow_add_eq_or_of_lt (by omega) _).symm
  have hopMask : op.toNat &&& 65535 = op.toNat := by
    rw [show 65535 = 2 ^ 16 - 1 from rfl, Nat.and_two_pow_sub_one_eq_mod, Nat.mod_eq_of_lt hop]
  have hvalueMask : value.toNat &&& 4294967295 = value.toNat := by
    rw [show 4294967295 = 2 ^ 32 - 1 from rfl, Nat.and_two_pow_sub_one_eq_mod, Nat.mod_eq_of_lt hvalue]
  rw [← hhigh, ← hlow, npuOp]
  simp only [UInt64.toNat_or, UInt64.toNat_shiftLeft, UInt64.toNat_and, UInt32.toNat_toUInt64, UInt64.reduceToNat,
    Nat.reduceMod, hopMask, hvalueMask, Nat.shiftLeft_eq]
  rw [Nat.mod_eq_of_lt (by omega), Nat.mod_eq_of_lt (by omega), Nat.or_assoc, Nat.mul_comm _ (2 ^ 48),
    Nat.mul_comm _ (2 ^ 16)]

/-! ## The commands of a matrix multiplication -/

section

variable (cna : NpuCnaDesc) (core : NpuCoreDesc) (dpu : NpuDpuDesc)

theorem genMatul_short : ∀ c ∈ genMatul cna core dpu, c.op.toNat < 2 ^ 16 ∧ c.reg.toNat < 2 ^ 16 := by
  have hall : ((genMatul cna core dpu).all fun c => decide (c.op.toNat < 2 ^ 16 ∧ c.reg.toNat < 2 ^ 16)) = true := rfl
  intro c hc
  exact of_decide_eq_true (List.all_eq_true.mp hall c hc)

/-- The places of the fields do not depend on what is in the descriptors, and those of a register are separate. -/
theorem genMatul_separate : ∀ c ∈ genMatul cna core dpu, UInt32.Separate (c.fields.map Field.place) := by
  have hplaces : (genMatul cna core dpu).map (fun c => c.fields.map Field.place) =
      (genMatul {} {} {}).map (fun c => c.fields.map Field.place) := rfl
  have hseparate : ∀ places ∈ (genMatul {} {} {}).map (fun c => c.fields.map Field.place),
      UInt32.Separate places := by decide
  intro c hc
  apply hseparate
  rw [← hplaces]
  exact List.mem_map.mpr ⟨c, hc, rfl⟩

variable {cna core dpu}

theorem registerValue_genMatul {op reg : UInt32} {c : Command}
    (h : (genMatul cna core dpu).find? (fun c => c.op == op && c.reg == reg) = some c) :
    registerValue ((genMatul cna core dpu).map Command.word) op reg = some (UInt32.pack c.fields) := by
  have hsame : ∀ c ∈ genMatul cna core dpu,
      ((fun w : UInt64 => w.toNat / 2 ^ 48 == op.toNat && w.toNat % 2 ^ 16 == reg.toNat) ∘ Command.word) c =
        (c.op == op && c.reg == reg) := by
    intro c hc
    obtain ⟨hop, hreg⟩ := genMatul_short cna core dpu c hc
    have hvalue := (UInt32.pack c.fields).toNat_lt
    have hdiv : c.word.toNat / 2 ^ 48 = c.op.toNat := by
      rw [Command.word, toNat_npuOp hop hreg]
      omega
    have hmod : c.word.toNat % 2 ^ 16 = c.reg.toNat := by
      rw [Command.word, toNat_npuOp hop hreg]
      omega
    rw [Function.comp_apply, hdiv, hmod]
    rw [Bool.eq_iff_iff]
    simp only [Bool.and_eq_true, beq_iff_eq, UInt32.toNat_inj]
  rw [registerValue, List.find?_map, List.find?_congr hsame, h]
  obtain ⟨hop, hreg⟩ := genMatul_short cna core dpu c (List.mem_of_find?_eq_some h)
  have hvalue := (UInt32.pack c.fields).toNat_lt
  have hword : c.word.toNat / 2 ^ 16 = 2 ^ 32 * c.op.toNat + (UInt32.pack c.fields).toNat := by
    rw [Command.word, toNat_npuOp hop hreg]
    omega
  simp only [Option.map_some, hword, Option.some.injEq, ← UInt32.toNat_inj, UInt32.toNat_ofNat']
  omega

/-- A field of an emitted word is the descriptor value, cut to the width of the field. -/
theorem decode_genMatul {op reg : UInt32} {c : Command}
    (h : (genMatul cna core dpu).find? (fun c => c.op == op && c.reg == reg) = some c) (i : Nat) {f : Field}
    (hf : c.fields[i]? = some f) {shift width : Nat} (hshift : f.shift.toNat = shift)
    (hmask : f.mask.toNat = 2 ^ width - 1) (hs : shift + width ≤ 32) {value : Nat}
    (hvalue : f.value.toNat % 2 ^ width = value) :
    decode ((genMatul cna core dpu).map Command.word) op reg shift width = some value := by
  subst hshift hvalue
  rw [decode, registerValue_genMatul h, Option.map_some,
    UInt32.field_pack (genMatul_separate cna core dpu c (List.mem_of_find?_eq_some h)) (List.mem_of_getElem? hf) hmask hs]

end

/-! ## What `fill_regcmd` returns -/

namespace MatMul

variable {mm : MatMul} {overflowChecks : Bool}

/-- Banks for so many bytes. -/
def banksFor (bytes : Nat) : Nat := (bytes + 32767) / 32768

/-- The banks for a number of bytes that fits in 16 bits. -/
theorem toNat_fdBanks (fdBytes : UInt16) :
    UInt16.toNat (if fdBytes % npuCbufBankSize = 0 then fdBytes / npuCbufBankSize else fdBytes / npuCbufBankSize + 1) =
      banksFor fdBytes.toNat := by
  have hlt := fdBytes.toNat_lt
  have hzero : fdBytes % npuCbufBankSize = 0 ↔ fdBytes.toNat % 32768 = 0 := by
    rw [← UInt16.toNat_inj, UInt16.toNat_mod]
    rfl
  have hdiv : (fdBytes / npuCbufBankSize).toNat = fdBytes.toNat / 32768 := UInt16.toNat_div ..
  unfold banksFor
  split
  · rename_i h
    rw [hzero] at h
    omega
  · rename_i h
    rw [hzero] at h
    rw [UInt16.toNat_add, hdiv]
    change (_ + 1) % _ = _
    omega

/-- The banks are those of the product modulo 2 ^ 16, at most two, so the first guard never stops. -/
theorem banks_eq_some_iff {fdBanks : UInt16} {weightBanks : UInt32} :
    mm.banks overflowChecks = some (fdBanks, weightBanks) ↔
      (fdBanks.toNat = banksFor (mm.m.toNat * mm.k.toNat % 2 ^ 16) ∧ weightBanks.toNat = 12 - fdBanks.toNat) ∧
        mm.k.toNat ≤ 32768 ∧ (overflowChecks = true → mm.m.toNat * mm.k.toNat < 2 ^ 16) := by
  have hbytes : (1 * mm.m * mm.k * 1 : UInt16).toNat = mm.m.toNat * mm.k.toNat % 2 ^ 16 := by
    simp [UInt16.toNat_mul]
  have hbanks := toNat_fdBanks (1 * mm.m * mm.k * 1)
  rw [hbytes] at hbanks
  obtain ⟨banks, hdef⟩ : ∃ banks, banks = (if (1 * mm.m * mm.k * 1 : UInt16) % npuCbufBankSize = 0 then
    (1 * mm.m * mm.k * 1 : UInt16) / npuCbufBankSize else (1 * mm.m * mm.k * 1 : UInt16) / npuCbufBankSize + 1) :=
    ⟨_, rfl⟩
  rw [← hdef] at hbanks
  have hle : banks.toNat ≤ 2 := by
    rw [hbanks, banksFor]
    omega
  have hguard : ¬ banks > npuCbufBanks - 1 := by
    rw [gt_iff_lt, UInt16.lt_iff_toNat_lt, not_lt]
    exact hle.trans (by decide)
  have hkernel : 1 * 1 * mm.k.toUInt32 * 1 ≤ npuCbufBankSize.toUInt32 ↔ mm.k.toNat ≤ 32768 := by
    rw [UInt32.le_iff_toNat_le]
    simp [npuCbufBankSize]
  have hweights : (npuCbufBanks.toUInt32 - banks.toUInt32).toNat = 12 - banks.toNat := by
    rw [UInt32.toNat_sub_of_le]
    · rw [UInt16.toNat_toUInt32, UInt16.toNat_toUInt32]
      rfl
    · rw [UInt32.le_iff_toNat_le, UInt16.toNat_toUInt32, UInt16.toNat_toUInt32]
      exact hle.trans (by decide)
  simp only [MatMul.banks, Option.bind_eq_bind, Option.bind_eq_some_iff, arith_eq_some, decide_eq_true_eq]
  constructor
  · rintro ⟨fdBytes, ⟨rfl, hfits⟩, h⟩
    rw [← hdef, if_neg hguard] at h
    split at h
    · rename_i hk
      cases h
      exact ⟨⟨hbanks, hweights⟩, hkernel.mp hk, hfits⟩
    · cases h
  · rintro ⟨⟨hfd, hwb⟩, hk, hfits⟩
    refine ⟨_, ⟨rfl, hfits⟩, ?_⟩
    rw [← hdef, if_neg hguard, if_pos (hkernel.mpr hk), Option.some.injEq, Prod.mk.injEq]
    have hsame : banks = fdBanks := UInt16.toNat_inj.mp (hbanks.trans hfd.symm)
    exact ⟨hsame, UInt32.toNat_inj.mp (by rw [hweights, hwb, hsame])⟩

theorem fillRegcmd_eq_some_iff {words : List UInt64} :
    mm.fillRegcmd overflowChecks = some words ↔ ∃ fdBanks weightBanks,
      mm.banks overflowChecks = some (fdBanks, weightBanks) ∧
      (overflowChecks = true → mm.m.toNat + 1 < 2 ^ 16 ∧ 1 ≤ mm.m ∧ 1 ≤ mm.k ∧ 1 ≤ mm.n) ∧
      words = (genMatul (mm.cnaDesc (mm.m + 1) fdBanks weightBanks) mm.coreDesc mm.dpuDesc).map Command.word := by
  simp only [fillRegcmd, Option.bind_eq_bind, Option.bind_eq_some_iff, arith_eq_some, decide_eq_true_eq]
  constructor
  · rintro ⟨_, ⟨rfl, hgrains⟩, ⟨fdBanks, weightBanks⟩, hbanks, _, ⟨-, hdims⟩, h⟩
    cases h
    exact ⟨fdBanks, weightBanks, hbanks, fun hc => ⟨hgrains hc, hdims hc⟩, rfl⟩
  · rintro ⟨fdBanks, weightBanks, hbanks, hc, rfl⟩
    exact ⟨_, ⟨rfl, fun h => (hc h).1⟩, (fdBanks, weightBanks), hbanks, (), ⟨trivial, fun h => (hc h).2⟩, rfl⟩

/-! ## The CBUF guard -/

/-- If `fill_regcmd` returns, the features take at most 11 banks and a kernel at most one, and the words say so. -/
def CbufGuarded (mm : MatMul) (overflowChecks : Bool) (m k : Nat) : Prop :=
  ∀ words, mm.fillRegcmd overflowChecks = some words → banksFor (m * k) ≤ 11 ∧ k ≤ 32768 ∧
    ∃ dataBank weightBank, decode words opRegCna cnaCbufCon0 0 4 = some dataBank ∧
      decode words opRegCna cnaCbufCon0 4 4 = some weightBank ∧ dataBank = banksFor (m * k) ∧ dataBank + weightBank = 12

/-- The banks in the emitted words. -/
theorem decode_banks {fdBanks : UInt16} {weightBanks : UInt32} (hbanks : mm.banks overflowChecks = some (fdBanks, weightBanks))
    (featureGrains : UInt16) :
    decode ((genMatul (mm.cnaDesc featureGrains fdBanks weightBanks) mm.coreDesc mm.dpuDesc).map Command.word) opRegCna
        cnaCbufCon0 0 4 = some fdBanks.toNat ∧
      decode ((genMatul (mm.cnaDesc featureGrains fdBanks weightBanks) mm.coreDesc mm.dpuDesc).map Command.word) opRegCna
        cnaCbufCon0 4 4 = some weightBanks.toNat := by
  obtain ⟨⟨hfd, hwb⟩, -, -⟩ := banks_eq_some_iff.mp hbanks
  have hle : fdBanks.toNat ≤ 2 := by
    rw [hfd, banksFor]
    omega
  constructor
  · refine decode_genMatul (by rfl) 1 (by rfl) (by rfl) (by rfl) (by decide) ?_
    simp only [cnaDesc, UInt8.toNat_toUInt32, UInt16.toNat_toUInt8]
    omega
  · refine decode_genMatul (by rfl) 0 (by rfl) (by rfl) (by rfl) (by decide) ?_
    simp only [cnaDesc, UInt8.toNat_toUInt32, UInt32.toNat_toUInt8]
    omega

end MatMul

/-- The guard does what its message says exactly when the product of the dimensions fits in 16 bits, when a kernel is
too large anyway, or when the build checks for overflow. -/
theorem cbuf_guarded_iff (overflowChecks : Bool) {m k n : Nat} (hm : 1 ≤ m ∧ m ≤ 65535) (hk : 1 ≤ k ∧ k ≤ 65535)
    (input weight output : UInt64) :
    (MatMul.new m k n input weight output).CbufGuarded overflowChecks m k ↔
      overflowChecks = true ∨ 32768 < k ∨ m * k < 65536 := by
  have hm' : (UInt16.ofNat m).toNat = m := UInt16.toNat_ofNat_of_lt' (show m < 2 ^ 16 by omega)
  have hk' : (UInt16.ofNat k).toNat = k := UInt16.toNat_ofNat_of_lt' (show k < 2 ^ 16 by omega)
  obtain ⟨mm, hmm⟩ : ∃ mm, mm = MatMul.new m k n input weight output := ⟨_, rfl⟩
  rw [← hmm]
  have hmm_m : mm.m.toNat = m := by rw [hmm]; exact hm'
  have hmm_k : mm.k.toNat = k := by rw [hmm]; exact hk'
  constructor
  · intro h
    by_contra hno
    rw [not_or, not_or, Bool.not_eq_true] at hno
    obtain ⟨rfl, hkernel, hproduct⟩ := hno
    -- The build wraps and returns, with the banks of a product that lost its high bits.
    obtain ⟨fdBanks, weightBanks, hbanks⟩ : ∃ fdBanks weightBanks, mm.banks false = some (fdBanks, weightBanks) := by
      refine ⟨UInt16.ofNat (MatMul.banksFor (m * k % 2 ^ 16)), UInt32.ofNat (12 - MatMul.banksFor (m * k % 2 ^ 16)),
        MatMul.banks_eq_some_iff.mpr ⟨⟨?_, ?_⟩, by omega, nofun⟩⟩
      · rw [hmm_m, hmm_k, MatMul.banksFor, UInt16.toNat_ofNat_of_lt' (show _ < 2 ^ 16 by omega)]
      · rw [MatMul.banksFor, UInt16.toNat_ofNat_of_lt' (show _ < 2 ^ 16 by omega),
          UInt32.toNat_ofNat_of_lt' (show _ < 2 ^ 32 by omega)]
    obtain ⟨-, -, dataBank, weightBank, hdata, -, hexact, -⟩ :=
      h _ (MatMul.fillRegcmd_eq_some_iff.mpr ⟨fdBanks, weightBanks, hbanks, nofun, rfl⟩)
    rw [(MatMul.decode_banks hbanks _).1, Option.some.injEq] at hdata
    obtain ⟨⟨hfd, -⟩, -, -⟩ := MatMul.banks_eq_some_iff.mp hbanks
    rw [hmm_m, hmm_k, hdata, hexact] at hfd
    simp only [MatMul.banksFor] at hfd
    omega
  · intro hcond words hwords
    obtain ⟨fdBanks, weightBanks, hbanks, -, rfl⟩ := MatMul.fillRegcmd_eq_some_iff.mp hwords
    obtain ⟨⟨hfd, hwb⟩, hkernel, hfits⟩ := MatMul.banks_eq_some_iff.mp hbanks
    rw [hmm_m, hmm_k] at hfits
    rw [hmm_m, hmm_k] at hfd
    rw [hmm_k] at hkernel
    have hsmall : m * k < 2 ^ 16 := by
      rcases hcond with hchecks | hlarge | hproduct
      · exact hfits hchecks
      · omega
      · exact hproduct
    rw [Nat.mod_eq_of_lt hsmall] at hfd
    have hle : MatMul.banksFor (m * k) ≤ 2 := by
      rw [MatMul.banksFor]
      omega
    obtain ⟨hdata, hweight⟩ := MatMul.decode_banks hbanks (mm.m + 1)
    exact ⟨by omega, hkernel, _, _, hdata, hweight, hfd, by omega⟩

theorem cbuf_guarded_iff_test : (MatMul.new 16 32 32 0 0 0).fillRegcmd false ≠ none ∧
    (MatMul.new 16 32 32 0 0 0).CbufGuarded false 16 32 :=
  ⟨nofun, (cbuf_guarded_iff false (by decide) (by decide) 0 0 0).mpr (.inr (.inr (by decide)))⟩

/-- For 256 rows of 256 channels the product wraps to zero and no bank is reserved for the features. -/
theorem cbuf_unguarded : ¬ (MatMul.new 256 256 1 0 0 0).CbufGuarded false 256 256 := by
  intro h
  obtain ⟨-, -, dataBank, _, hdata, -, hexact, -⟩ := h _ rfl
  have hzero : some dataBank = some 0 := hdata.symm.trans (by decide +kernel)
  rw [hexact] at hzero
  revert hzero
  decide

/-! ## Fields that hold a dimension -/

/-- A field, and the number it should hold. -/
structure DimField where
  op : UInt32
  reg : UInt32
  shift : Nat
  width : Nat
  value : Nat

/-- The fields that `fill_regcmd` derives from the dimensions, with their exact values. -/
def dimFields (m k n : Nat) : List DimField :=
  [⟨opRegCna, cnaConvCon2, 4, 10, m + 1⟩, -- feature_grains
    ⟨opRegCna, cnaDataSize0, 0, 11, m⟩, -- datain_height
    ⟨opRegCna, cnaDataSize1, 0, 16, k⟩, -- datain_channel
    ⟨opRegCna, cnaDataSize1, 16, 16, k - 1⟩,
    ⟨opRegCna, cnaDataSize3, 0, 18, m⟩, -- dataout_atomics
    ⟨opRegCna, cnaWeightSize0, 0, 32, k * n⟩, -- weight_bytes
    ⟨opRegCna, cnaWeightSize1, 0, 19, k⟩, -- weight_bytes_per_kernel
    ⟨opRegCna, cnaWeightSize2, 0, 14, n⟩, -- weight_kernels
    ⟨opRegCna, cnaCbufCon1, 0, 13, (k + 63) / 64⟩, -- data_entries
    ⟨opRegCna, cnaFcDataSize0, 0, 11, m⟩, -- dma_height
    ⟨opRegCna, cnaFcDataSize1, 0, 16, k⟩, -- dma_channel
    ⟨opRegCore, coreDataoutSize0, 16, 16, m - 1⟩, -- dataout_height
    ⟨opRegCore, coreDataoutSize1, 0, 16, n - 1⟩, -- dataout_channel
    ⟨opRegDpu, dpuDstSurfStride, 4, 28, m⟩, -- dst_surf_stride
    ⟨opRegDpu, dpuDataCubeHeight, 0, 13, m - 1⟩, -- height
    ⟨opRegDpu, dpuDataCubeChannel, 0, 13, n - 1⟩, -- channel, twice
    ⟨opRegDpu, dpuDataCubeChannel, 16, 13, n - 1⟩,
    ⟨opRegDpu, dpuWdmaSize0, 0, 13, n - 1⟩, -- channel_wdma
    ⟨opRegDpu, dpuWdmaSize1, 16, 13, m - 1⟩, -- height_wdma
    ⟨opRegDpu, dpuSurfaceAdd, 4, 28, 8 * m⟩] -- surf_add

/-- A field of 28 bits read as a signed number. -/
def signed28 (value : Nat) : Int := if value < 2 ^ 27 then value else value - 2 ^ 28

/-- The exact value of `surf_stride`. -/
def exactSurfStride (m : Nat) : Int :=
  let stride : Int := 4 * ((m / 4 : Nat) - 1)
  if stride < 0 then stride + 1 else stride

/-- Every field derived from the dimensions reads back as its exact value. -/
structure Lossless (words : List UInt64) (m k n : Nat) : Prop where
  fields : ∀ d ∈ dimFields m k n, decode words d.op d.reg d.shift d.width = some d.value
  surfStride : (decode words opRegCna cnaDmaCon2 0 28).map signed28 = some (exactSurfStride m)

section

variable {m k n : Nat}

theorem toNat_pred {x : UInt16} (h : 1 ≤ x.toNat) : (x - 1).toUInt32.toNat = x.toNat - 1 := by
  have hle : 1 ≤ x := UInt16.le_iff_toNat_le.mpr (by simpa using h)
  rw [UInt16.toNat_toUInt32, UInt16.toNat_sub_of_le _ _ hle]
  rfl

theorem toNat_entries (x : UInt16) :
    (if 1 * x % 64 = 0 then 1 * x / 64 else 1 * x / 64 + 1).toUInt32.toNat = (x.toNat + 63) / 64 := by
  have hlt := x.toNat_lt
  have hzero : x % 64 = 0 ↔ x.toNat % 64 = 0 := by
    rw [← UInt16.toNat_inj, UInt16.toNat_mod]
    rfl
  have hdiv : (x / 64).toNat = x.toNat / 64 := UInt16.toNat_div ..
  rw [UInt16.toNat_toUInt32, UInt16.one_mul]
  split
  · rename_i h
    rw [hzero] at h
    omega
  · rename_i h
    rw [hzero] at h
    rw [UInt16.toNat_add, hdiv]
    change (_ + 1) % _ = _
    omega

/-- The fields of a matrix multiplication hold the dimensions, cut to their widths. -/
theorem decode_dimFields {mm : MatMul} (hm : mm.m.toNat = m) (hk : mm.k.toNat = k) (hn : mm.n.toNat = n) (hm1 : 1 ≤ m)
    (hk1 : 1 ≤ k) (hn1 : 1 ≤ n) (fdBanks : UInt16) (weightBanks : UInt32) :
    ∀ d ∈ dimFields m k n, decode ((genMatul (mm.cnaDesc (mm.m + 1) fdBanks weightBanks) mm.coreDesc mm.dpuDesc).map
      Command.word) d.op d.reg d.shift d.width = some (d.value % 2 ^ d.width) := by
  have hlm := mm.m.toNat_lt
  have hlk := mm.k.toNat_lt
  have hln := mm.n.toNat_lt
  have hm32 : mm.m.toUInt32.toNat = m := by rw [UInt16.toNat_toUInt32, hm]
  have hk32 : mm.k.toUInt32.toNat = k := by rw [UInt16.toNat_toUInt32, hk]
  have hn32 : mm.n.toUInt32.toNat = n := by rw [UInt16.toNat_toUInt32, hn]
  have hmPred : (mm.m - 1).toUInt32.toNat = m - 1 := by rw [toNat_pred (by omega), hm]
  have hkPred : (mm.k - 1).toUInt32.toNat = k - 1 := by rw [toNat_pred (by omega), hk]
  have hnPred : (mm.n - 1).toUInt32.toNat = n - 1 := by rw [toNat_pred (by omega), hn]
  have hgrains : (mm.m + 1).toUInt32.toNat % 2 ^ 10 = (m + 1) % 2 ^ 10 := by
    rw [UInt16.toNat_toUInt32, UInt16.toNat_add, hm]
    change (m + 1) % 2 ^ 16 % 2 ^ 10 = _
    omega
  have hatomics : (1 * mm.m.toUInt32).toNat = m := by rw [UInt32.one_mul, hm32]
  have hkernel : (1 * 1 * mm.k.toUInt32 * 1).toNat = k := by simp [hk]
  have hbytes : (1 * 1 * mm.k.toUInt32 * 1 * mm.n.toUInt32).toNat = k * n := by
    have hprod : k * n < 2 ^ 32 := by
      calc k * n ≤ 65535 * 65535 := Nat.mul_le_mul (by omega) (by omega)
        _ < 2 ^ 32 := by decide
    rw [UInt32.toNat_mul, hkernel, hn32, Nat.mod_eq_of_lt hprod]
  have hentries : (if 1 * mm.k % 64 = 0 then 1 * mm.k / 64 else 1 * mm.k / 64 + 1).toUInt32.toNat = (k + 63) / 64 := by
    rw [toNat_entries, hk]
  have hstride : (mm.m.toUInt32 * 1).toNat = m := by rw [UInt32.mul_one, hm32]
  have hadd : (mm.m.toUInt32 * 1 * 8).toNat = 8 * m := by
    rw [UInt32.mul_one, UInt32.toNat_mul, hm32]
    change m * 8 % 2 ^ 32 = 8 * m
    omega
  simp only [dimFields, List.forall_mem_cons]
  refine ⟨?_, ?_, ?_, ?_, ?_, ?_, ?_, ?_, ?_, ?_, ?_, ?_, ?_, ?_, ?_, ?_, ?_, ?_, ?_, ?_, nofun⟩
  · exact decode_genMatul (by rfl) 1 (by rfl) (by rfl) (by rfl) (by decide) hgrains
  · exact decode_genMatul (by rfl) 1 (by rfl) (by rfl) (by rfl) (by decide) (congrArg (· % 2 ^ _) hm32)
  · exact decode_genMatul (by rfl) 1 (by rfl) (by rfl) (by rfl) (by decide) (congrArg (· % 2 ^ _) hk32)
  · exact decode_genMatul (by rfl) 0 (by rfl) (by rfl) (by rfl) (by decide) (congrArg (· % 2 ^ _) hkPred)
  · exact decode_genMatul (by rfl) 0 (by rfl) (by rfl) (by rfl) (by decide) (congrArg (· % 2 ^ _) hatomics)
  · exact decode_genMatul (by rfl) 0 (by rfl) (by rfl) (by rfl) (by decide) (congrArg (· % 2 ^ _) hbytes)
  · exact decode_genMatul (by rfl) 0 (by rfl) (by rfl) (by rfl) (by decide) (congrArg (· % 2 ^ _) hkernel)
  · exact decode_genMatul (by rfl) 2 (by rfl) (by rfl) (by rfl) (by decide) (congrArg (· % 2 ^ _) hn32)
  · exact decode_genMatul (by rfl) 0 (by rfl) (by rfl) (by rfl) (by decide) (congrArg (· % 2 ^ _) hentries)
  · exact decode_genMatul (by rfl) 1 (by rfl) (by rfl) (by rfl) (by decide) (congrArg (· % 2 ^ _) hm32)
  · exact decode_genMatul (by rfl) 0 (by rfl) (by rfl) (by rfl) (by decide) (congrArg (· % 2 ^ _) hk32)
  · exact decode_genMatul (by rfl) 0 (by rfl) (by rfl) (by rfl) (by decide) (congrArg (· % 2 ^ _) hmPred)
  · exact decode_genMatul (by rfl) 0 (by rfl) (by rfl) (by rfl) (by decide) (congrArg (· % 2 ^ _) hnPred)
  · exact decode_genMatul (by rfl) 0 (by rfl) (by rfl) (by rfl) (by decide) (congrArg (· % 2 ^ _) hstride)
  · exact decode_genMatul (by rfl) 0 (by rfl) (by rfl) (by rfl) (by decide) (congrArg (· % 2 ^ _) hmPred)
  · exact decode_genMatul (by rfl) 1 (by rfl) (by rfl) (by rfl) (by decide) (congrArg (· % 2 ^ _) hnPred)
  · exact decode_genMatul (by rfl) 0 (by rfl) (by rfl) (by rfl) (by decide) (congrArg (· % 2 ^ _) hnPred)
  · exact decode_genMatul (by rfl) 0 (by rfl) (by rfl) (by rfl) (by decide) (congrArg (· % 2 ^ _) hnPred)
  · exact decode_genMatul (by rfl) 0 (by rfl) (by rfl) (by rfl) (by decide) (congrArg (· % 2 ^ _) hmPred)
  · exact decode_genMatul (by rfl) 0 (by rfl) (by rfl) (by rfl) (by decide) (congrArg (· % 2 ^ _) hadd)

/-- 28 bits keep a signed value that they can express. -/
theorem signed28_field {x : Int32} (hlo : -2 ^ 27 ≤ x.toInt) (hhi : x.toInt < 2 ^ 27) :
    signed28 (x.toUInt32.toNat % 2 ^ 28) = x.toInt := by
  have hlt := x.toUInt32.toNat_lt
  have hbmod : x.toInt = (x.toUInt32.toNat : Int).bmod (2 ^ 32) := by
    rw [← Int32.toInt_toBitVec, BitVec.toInt_eq_toNat_bmod, Int32.toNat_toBitVec]
  simp only [Int.bmod] at hbmod
  rw [signed28]
  split at hbmod <;> split <;> omega

theorem toInt_surfStride {mm : MatMul} (hm : mm.m.toNat = m) : mm.surfStride.toInt = exactSurfStride m := by
  have hlt := mm.m.toNat_lt
  have hrows : mm.m.toUInt32.toInt32.toInt = m := by
    rw [← Int32.toInt_toBitVec, UInt32.toBitVec_toInt32, BitVec.toInt_eq_toNat_bmod, UInt32.toNat_toBitVec,
      UInt16.toNat_toUInt32, hm]
    exact I32.bmod_of_fits (by omega)
  have hgroups : (mm.m.toUInt32.toInt32 / 4 - 1).toInt = ((m / 4 : Nat) : Int) - 1 := by
    rw [Int32.toInt_sub, Int32.toInt_div, hrows]
    change (((m : Int).tdiv 4).bmod (2 ^ 32) - 1).bmod (2 ^ 32) = _
    rw [Int.tdiv_eq_ediv_of_nonneg (by omega), @I32.bmod_of_fits (m / 4 : Int) (by omega), I32.bmod_of_fits (by omega)]
    omega
  have hstride : ((1 * 4 : UInt32).toInt32 * (mm.m.toUInt32.toInt32 / 4 - 1)).toInt = 4 * (((m / 4 : Nat) : Int) - 1) := by
    rw [Int32.toInt_mul, hgroups]
    change (4 * _ : Int).bmod (2 ^ 32) = _
    exact I32.bmod_of_fits (by omega)
  have hneg : (1 * 4 : UInt32).toInt32 * (mm.m.toUInt32.toInt32 / 4 - 1) < 0 ↔ 4 * (((m / 4 : Nat) : Int) - 1) < 0 := by
    rw [Int32.lt_iff_toInt_lt, hstride]
    rfl
  simp only [MatMul.surfStride, exactSurfStride, hneg]
  split
  · rw [Int32.toInt_add, hstride]
    change (_ + 1 : Int).bmod (2 ^ 32) = _
    exact I32.bmod_of_fits (by omega)
  · exact hstride

theorem decode_surfStride {mm : MatMul} (hm : mm.m.toNat = m) (cna : NpuCnaDesc) (hcna : cna.surfStride = mm.surfStride)
    (core : NpuCoreDesc) (dpu : NpuDpuDesc) :
    (decode ((genMatul cna core dpu).map Command.word) opRegCna cnaDmaCon2 0 28).map signed28 =
      some (exactSurfStride m) := by
  have hlt := mm.m.toNat_lt
  rw [decode_genMatul (by rfl) 0 (by rfl) (by rfl) (by rfl) (by decide) rfl, Option.map_some]
  change some (signed28 (cna.surfStride.toUInt32.toNat % 2 ^ 28)) = _
  have hexact := toInt_surfStride hm
  have hbound : -2 ^ 27 ≤ exactSurfStride m ∧ exactSurfStride m < 2 ^ 27 := by
    simp only [exactSurfStride]
    split <;> omega
  rw [hcna, signed28_field (hexact ▸ hbound.1) (hexact ▸ hbound.2), hexact]

/-- All fields are wide enough for their values exactly up to 1022 rows and 8192 columns. -/
theorem dimFields_fit_iff (hm : m ≤ 65535) (hk : k ≤ 65535) (hn : n ≤ 65535) :
    (∀ d ∈ dimFields m k n, d.value < 2 ^ d.width) ↔ m ≤ 1022 ∧ n ≤ 8192 := by
  have hbytes : k * n < 2 ^ 32 := by
    calc k * n ≤ 65535 * 65535 := Nat.mul_le_mul hk hn
      _ < 2 ^ 32 := by decide
  simp only [dimFields, List.forall_mem_cons]
  constructor
  · rintro ⟨hgrains, -, -, -, -, -, -, -, -, -, -, -, -, -, -, hchannel, -⟩
    omega
  · rintro ⟨hrows, hcolumns⟩
    refine ⟨?_, ?_, ?_, ?_, ?_, hbytes, ?_, ?_, ?_, ?_, ?_, ?_, ?_, ?_, ?_, ?_, ?_, ?_, ?_, ?_, nofun⟩ <;> omega

end

/-- The words of a multiplication give back the dimensions exactly up to 1022 rows and 8192 columns, and the fields of a
word are apart for all dimensions. -/
theorem regcmd_lossless_iff (overflowChecks : Bool) {m k n : Nat} (hm : 1 ≤ m ∧ m ≤ 65535) (hk : 1 ≤ k ∧ k ≤ 65535)
    (hn : 1 ≤ n ∧ n ≤ 65535) (input weight output : UInt64) {words : List UInt64}
    (hwords : (MatMul.new m k n input weight output).fillRegcmd overflowChecks = some words) :
    (∀ cna core dpu, ∀ c ∈ genMatul cna core dpu, UInt32.Separate (c.fields.map Field.place)) ∧
      (Lossless words m k n ↔ m ≤ 1022 ∧ n ≤ 8192) := by
  refine ⟨genMatul_separate, ?_⟩
  obtain ⟨mm, hmm⟩ : ∃ mm, mm = MatMul.new m k n input weight output := ⟨_, rfl⟩
  rw [← hmm] at hwords
  have hmm_m : mm.m.toNat = m := by rw [hmm]; exact UInt16.toNat_ofNat_of_lt' (show m < 2 ^ 16 by omega)
  have hmm_k : mm.k.toNat = k := by rw [hmm]; exact UInt16.toNat_ofNat_of_lt' (show k < 2 ^ 16 by omega)
  have hmm_n : mm.n.toNat = n := by rw [hmm]; exact UInt16.toNat_ofNat_of_lt' (show n < 2 ^ 16 by omega)
  obtain ⟨fdBanks, weightBanks, -, -, rfl⟩ := MatMul.fillRegcmd_eq_some_iff.mp hwords
  have hdecode := decode_dimFields hmm_m hmm_k hmm_n hm.1 hk.1 hn.1 fdBanks weightBanks
  rw [← dimFields_fit_iff hm.2 hk.2 hn.2]
  constructor
  · intro h d hd
    have hcut := (hdecode d hd).symm.trans (h.fields d hd)
    rw [Option.some.injEq] at hcut
    rw [← hcut]
    exact Nat.mod_lt _ (Nat.two_pow_pos _)
  · intro hfit
    refine ⟨fun d hd => ?_, decode_surfStride hmm_m _ rfl _ _⟩
    rw [hdecode d hd, Nat.mod_eq_of_lt (hfit d hd)]

theorem regcmd_lossless_iff_test :
    ∃ words, (MatMul.new 16 32 32 0 0 0).fillRegcmd false = some words ∧ Lossless words 16 32 32 :=
  ⟨_, rfl, (regcmd_lossless_iff false (by decide) (by decide) (by decide) 0 0 0 rfl).2.mpr (by decide)⟩

/-- With 1023 rows `feature_grains` needs an eleventh bit and reads back as zero. -/
theorem regcmd_cut : ∃ words, (MatMul.new 1023 1 1 0 0 0).fillRegcmd true = some words ∧
    decode words opRegCna cnaConvCon2 4 10 = some 0 ∧ ¬ Lossless words 1023 1 1 := by
  have hgrains : decode (((MatMul.new 1023 1 1 0 0 0).fillRegcmd true).getD []) opRegCna cnaConvCon2 4 10 = some 0 := by
    decide +kernel
  refine ⟨_, rfl, hgrains, fun h => ?_⟩
  have hexact := h.fields ⟨opRegCna, cnaConvCon2, 4, 10, 1024⟩ (List.mem_cons_self ..)
  exact absurd (hgrains.symm.trans hexact) (by decide)

end Rknpu.Task
