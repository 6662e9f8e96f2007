import Rknpu.Clock.Cru

/-!
# The eMMC clock

`mmc_set_clk` selects a parent by the numbers of the SFC clock, and `mmc_get_clk` reads it by those of the eMMC clock.
The two only agree on the oscillator, and the divider has six bits.
-/

namespace Rknpu.Clock

/-- The parent that `mmc_set_clk` means for a rate. -/
def Rk3588Cru.chosenParent (cru : Rk3588Cru) (rate : UInt64) : UInt64 :=
  if oscHz % rate = 0 then oscHz else if cru.cpllHz % rate = 0 then cru.cpllHz else cru.gpllHz

/-- The bits of the select and the divider field. -/
def emmcPlace : UInt32 := cclkEmmcSelMask ||| cclkEmmcDivMask

/-- The rate that was set is the parent divided by the least divider that does not exceed the request, and the rest of
the register is as before. -/
structure EmmcAgrees (cru : Rk3588Cru) (clksel clksel' : ClkSelRegisters) (rate r : UInt64) : Prop where
  le : r ≤ rate
  divided : r.toNat = (cru.chosenParent rate).toNat / (((cru.chosenParent rate).toNat + rate.toNat - 1) / rate.toNat)
  frame : clksel'.con77 &&& ~~~emmcPlace = clksel.con77 &&& ~~~emmcPlace

/-! ## Reading -/

/-- The rate that the register stands for. -/
def Rk3588Cru.emmcRate (cru : Rk3588Cru) (con77 : UInt32) : UInt64 :=
  divToRate (cru.emmcParent ((con77 &&& cclkEmmcSelMask) >>> cclkEmmcSelShift))
    ((con77 &&& cclkEmmcDivMask) >>> cclkEmmcDivShift)

/-- A write that enables both fields is read back from the word. -/
theorem emmcRate_hiwordWrite (cru : Rk3588Cru) {old word : UInt32} (h : word >>> 16 &&& emmcPlace = emmcPlace) :
    cru.emmcRate (UInt32.hiwordWrite old word) = cru.emmcRate word := by
  have hcut : ∀ {mask : UInt32}, emmcPlace &&& mask = mask → UInt32.hiwordWrite old word &&& mask = word &&& mask := by
    intro mask hmask
    apply UInt32.hiwordWrite_and_of_enabled
    rw [← hmask, ← UInt32.and_assoc, h]
  rw [Rk3588Cru.emmcRate, hcut (by decide), hcut (by decide), Rk3588Cru.emmcRate]

/-- No word stands for less than the oscillator over 64. -/
theorem le_emmcRate (con77 : UInt32) : 375000 ≤ (Rk3588Cru.new.emmcRate con77).toNat := by
  have hparent : 24000000 ≤ (Rk3588Cru.new.emmcParent ((con77 &&& cclkEmmcSelMask) >>> cclkEmmcSelShift)).toNat := by
    rw [Rk3588Cru.emmcParent]
    split
    · decide
    · split <;> decide
  have hdiv : ((con77 &&& cclkEmmcDivMask) >>> cclkEmmcDivShift).toNat ≤ 63 := by
    rw [UInt32.shiftRight_and]
    exact Nat.and_le_right
  rw [Rk3588Cru.emmcRate, divToRate, UInt64.toNat_div, UInt64.toNat_add, UInt32.toNat_toUInt64]
  change 375000 ≤ _ / ((_ + 1) % 2 ^ 64)
  rw [Nat.mod_eq_of_lt (by omega), Nat.le_div_iff_mul_le (by omega)]
  omega

/-! ## Words -/

/-- A word enables both fields and stands for a rate that is not the one meant. -/
def Misread (parent : Nat) (srcClk : UInt32) (div : Nat) : Prop :=
  emmcWord srcClk (UInt32.ofNat div) >>> 16 &&& emmcPlace = emmcPlace ∧
    (Rk3588Cru.new.emmcRate (emmcWord srcClk (UInt32.ofNat div))).toNat ≠ parent / div

instance (parent : Nat) (srcClk : UInt32) (div : Nat) : Decidable (Misread parent srcClk div) :=
  inferInstanceAs (Decidable (_ ∧ _))

theorem osc_words : ∀ div < 65, 1 ≤ div → emmcWord sclkSfcSel24m (UInt32.ofNat div) >>> 16 = emmcPlace ∧
    (Rk3588Cru.new.emmcRate (emmcWord sclkSfcSel24m (UInt32.ofNat div))).toNat = 24000000 / div := by decide +kernel

/-- With the number of the other PLL, no divider gives the rate that was meant. From 65 on a divider also changes the
select field. -/
theorem pll_words : ∀ spill < 63, ∀ rest < 64, Misread 1500000000 sclkSfcSelCpll (64 * spill + rest + 1) ∧
    Misread 1188000000 sclkSfcSelGpll (64 * spill + rest + 1) := by decide +kernel

theorem misread {div : Nat} (hlo : 1 ≤ div) (hhi : div ≤ 4000) :
    Misread 1500000000 sclkSfcSelCpll div ∧ Misread 1188000000 sclkSfcSelGpll div := by
  have hdiv : 64 * ((div - 1) / 64) + (div - 1) % 64 + 1 = div := by omega
  rw [← hdiv]
  exact pll_words _ (by omega) _ (by omega)

/-! ## Setting -/

section

variable {overflowChecks : Bool} {dividend divisor rate : UInt64}

theorem divRoundUp_eq_some_iff {div : UInt64} : divRoundUp overflowChecks dividend divisor = some div ↔
    (dividend + divisor - 1) / divisor = div ∧
      (overflowChecks = true → dividend.toNat + divisor.toNat < 2 ^ 64 ∧ 1 ≤ dividend + divisor) := by
  simp only [divRoundUp, Option.bind_eq_bind, Option.bind_eq_some_iff, arith_eq_some, decide_eq_true_eq, Option.pure_def,
    Option.some.injEq]
  constructor
  · rintro ⟨_, ⟨rfl, hfits⟩, _, ⟨rfl, hone⟩, rfl⟩
    exact ⟨rfl, fun h => ⟨hfits h, hone h⟩⟩
  · rintro ⟨rfl, h⟩
    exact ⟨_, ⟨rfl, fun hc => (h hc).1⟩, _, ⟨rfl, fun hc => (h hc).2⟩, rfl⟩

/-- Where the sum fits, the quotient is rounded up in every build. -/
theorem divRoundUp_of_fits (hpos : 1 ≤ dividend.toNat) (hfits : dividend.toNat + divisor.toNat < 2 ^ 64) :
    ∃ div, divRoundUp overflowChecks dividend divisor = some div ∧
      div.toNat = (dividend.toNat + divisor.toNat - 1) / divisor.toNat := by
  have hsum : (dividend + divisor).toNat = dividend.toNat + divisor.toNat := by
    rw [UInt64.toNat_add, Nat.mod_eq_of_lt hfits]
  have hone : 1 ≤ dividend + divisor := by
    rw [UInt64.le_iff_toNat_le, hsum]
    change 1 ≤ _
    omega
  refine ⟨_, divRoundUp_eq_some_iff.mpr ⟨rfl, fun _ => ⟨hfits, hone⟩⟩, ?_⟩
  rw [UInt64.toNat_div, UInt64.toNat_sub_of_le _ _ hone, hsum]
  rfl

theorem mmcSetClk_ok_iff {cru : Rk3588Cru} {clksel clksel' : ClkSelRegisters} {r : UInt64} :
    cru.mmcSetClk overflowChecks clksel cclkEmmc rate = some (.ok r, clksel') ↔
      ∃ srcClk div, cru.emmcSource overflowChecks rate = some (srcClk, div) ∧
        (overflowChecks = true → 1 ≤ div.toUInt32) ∧
        clksel' = { clksel with con77 := UInt32.hiwordWrite clksel.con77 (emmcWord srcClk div.toUInt32) } ∧
        r = cru.emmcRate clksel'.con77 := by
  simp only [Rk3588Cru.mmcSetClk, Rk3588Cru.mmcGetClk, ↓reduceIte, Option.bind_eq_bind, Option.bind_eq_some_iff,
    arith_eq_some, decide_eq_true_eq, Option.pure_def, Option.some.injEq, Prod.mk.injEq, Prod.exists]
  constructor
  · rintro ⟨srcClk, div, hsource, -, ⟨-, hone⟩, _, rfl, hr, rfl⟩
    cases hr
    exact ⟨srcClk, div, hsource, hone, rfl, rfl⟩
  · rintro ⟨srcClk, div, hsource, hone, rfl, rfl⟩
    exact ⟨srcClk, div, hsource, (), ⟨trivial, hone⟩, _, rfl, rfl, rfl⟩

/-- A parent divides a rate exactly when the remainder of its frequency is zero. -/
theorem mod_eq_zero_iff {parent : UInt64} : parent % rate = 0 ↔ parent.toNat % rate.toNat = 0 := by
  rw [← UInt64.toNat_inj, UInt64.toNat_mod]
  rfl

theorem one_le_toUInt32 {div : UInt64} (hlo : 1 ≤ div.toNat) (hhi : div.toNat < 2 ^ 32) : 1 ≤ div.toUInt32 := by
  rw [UInt32.le_iff_toNat_le, UInt64.toNat_toUInt32, Nat.mod_eq_of_lt hhi]
  exact hlo

/-- A source whose number is misread never gives the rate that was meant. -/
theorem not_agrees_of_misread {clksel : ClkSelRegisters} {srcClk : UInt32} {parent : UInt64}
    (hparent : Rk3588Cru.new.chosenParent rate = parent)
    (hsource : Rk3588Cru.new.emmcSource overflowChecks rate = (divRoundUp overflowChecks parent rate).map (srcClk, ·))
    (hmisread : ∀ div, 1 ≤ div → div ≤ 4000 → Misread parent.toNat srcClk div) (hrate : 1 ≤ rate.toNat)
    (hpos : 1 ≤ parent.toNat) (hle : parent.toNat ≤ 1500000000) (hfits : parent.toNat + rate.toNat < 2 ^ 64) :
    ¬ ∀ r clksel', Rk3588Cru.new.mmcSetClk overflowChecks clksel cclkEmmc rate = some (.ok r, clksel') →
      EmmcAgrees .new clksel clksel' rate r := by
  intro h
  obtain ⟨div, hdiv, hvalue⟩ := @divRoundUp_of_fits overflowChecks _ _ hpos hfits
  have hlo : 1 ≤ div.toNat := by
    rw [hvalue, Nat.le_div_iff_mul_le (by omega)]
    omega
  have hhi : div.toNat ≤ parent.toNat := by
    rw [hvalue, Nat.div_le_iff_le_mul_add_pred (by omega)]
    have := Nat.le_mul_of_pos_left parent.toNat hrate
    omega
  have hcast : div.toUInt32 = UInt32.ofNat div.toNat := by simp
  have hagrees := h _ _ (mmcSetClk_ok_iff.mpr
    ⟨srcClk, div, by rw [hsource, hdiv]; rfl, fun _ => one_le_toUInt32 hlo (by omega), rfl, rfl⟩)
  have hexact := hagrees.divided
  rw [hparent, ← hvalue] at hexact
  have hread := le_emmcRate (UInt32.hiwordWrite clksel.con77 (emmcWord srcClk div.toUInt32))
  have hsmall : div.toNat ≤ 4000 := by
    rw [hexact, Nat.le_div_iff_mul_le (by omega)] at hread
    omega
  obtain ⟨henabled, hne⟩ := hmisread div.toNat hlo hsmall
  rw [← hcast] at henabled hne
  rw [emmcRate_hiwordWrite _ henabled] at hexact
  exact hne hexact

/-- Beyond 64 bits the quotient of a build without checks is 0 or 1, and the clock runs from another parent. -/
theorem not_agrees_of_wrap {clksel : ClkSelRegisters} (hparent : Rk3588Cru.new.chosenParent rate = gpllHz)
    (hsource : Rk3588Cru.new.emmcSource false rate = (divRoundUp false gpllHz rate).map (sclkSfcSelGpll, ·))
    (hwrap : 2 ^ 64 ≤ 1188000000 + rate.toNat) :
    ¬ ∀ r clksel', Rk3588Cru.new.mmcSetClk false clksel cclkEmmc rate = some (.ok r, clksel') →
      EmmcAgrees .new clksel clksel' rate r := by
  intro h
  have hlt := rate.toNat_lt
  have hdivide : divRoundUp false gpllHz rate = some ((gpllHz + rate - 1) / rate) :=
    divRoundUp_eq_some_iff.mpr ⟨rfl, nofun⟩
  have hsource' : Rk3588Cru.new.emmcSource false rate = some (sclkSfcSelGpll, (gpllHz + rate - 1) / rate) := by
    rw [hsource, hdivide]
    rfl
  have hexact := (h _ _ (mmcSetClk_ok_iff.mpr ⟨_, _, hsource', nofun, rfl, rfl⟩)).divided
  have hone : (1188000000 + rate.toNat - 1) / rate.toNat = 1 := by
    rw [Nat.div_eq_iff (by omega)]
    omega
  rw [hparent] at hexact
  change _ = 1188000000 / ((1188000000 + rate.toNat - 1) / rate.toNat) at hexact
  rw [hone] at hexact
  have hquotient : ((gpllHz + rate - 1) / rate).toNat ≤ 1 := by
    rw [UInt64.toNat_div]
    have hnumerator := (gpllHz + rate - 1).toNat_lt
    rw [Nat.div_le_iff_le_mul_add_pred (by omega)]
    omega
  have hcases : (gpllHz + rate - 1) / rate = 0 ∨ (gpllHz + rate - 1) / rate = 1 := by
    rw [← UInt64.toNat_inj, ← UInt64.toNat_inj]
    change _ = 0 ∨ _ = 1
    omega
  rcases hcases with hdiv | hdiv
  · rw [hdiv, emmcRate_hiwordWrite _ (by decide)] at hexact
    revert hexact
    decide
  · rw [hdiv, emmcRate_hiwordWrite _ (by decide)] at hexact
    revert hexact
    decide

/-- A parent and its number, in the order in which they are tried. -/
theorem source_cases (hrate : 1 ≤ rate.toNat) :
    (24000000 % rate.toNat = 0 ∧ Rk3588Cru.new.chosenParent rate = oscHz ∧
        Rk3588Cru.new.emmcSource overflowChecks rate =
          (divRoundUp overflowChecks oscHz rate).map (sclkSfcSel24m, ·)) ∨
      (24000000 % rate.toNat ≠ 0 ∧ 1500000000 % rate.toNat = 0 ∧ Rk3588Cru.new.chosenParent rate = cpllHz ∧
        Rk3588Cru.new.emmcSource overflowChecks rate =
          (divRoundUp overflowChecks cpllHz rate).map (sclkSfcSelCpll, ·)) ∨
      (24000000 % rate.toNat ≠ 0 ∧ 1500000000 % rate.toNat ≠ 0 ∧ Rk3588Cru.new.chosenParent rate = gpllHz ∧
        Rk3588Cru.new.emmcSource overflowChecks rate =
          (divRoundUp overflowChecks gpllHz rate).map (sclkSfcSelGpll, ·)) := by
  have hne : rate ≠ 0 := by
    rintro rfl
    exact absurd hrate (by decide)
  have hosc : oscHz % rate = 0 ↔ 24000000 % rate.toNat = 0 := mod_eq_zero_iff
  have hcpll : Rk3588Cru.new.cpllHz % rate = 0 ↔ 1500000000 % rate.toNat = 0 := mod_eq_zero_iff
  rw [Rk3588Cru.chosenParent, Rk3588Cru.emmcSource, if_neg hne]
  by_cases hdivides : 24000000 % rate.toNat = 0
  · rw [if_pos (hosc.mpr hdivides), if_pos (hosc.mpr hdivides)]
    exact .inl ⟨hdivides, rfl, rfl⟩
  · rw [if_neg (mt hosc.mp hdivides), if_neg (mt hosc.mp hdivides)]
    by_cases hdivides' : 1500000000 % rate.toNat = 0
    · rw [if_pos (hcpll.mpr hdivides'), if_pos (hcpll.mpr hdivides')]
      exact .inr (.inl ⟨hdivides, hdivides', rfl, rfl⟩)
    · rw [if_neg (mt hcpll.mp hdivides'), if_neg (mt hcpll.mp hdivides')]
      exact .inr (.inr ⟨hdivides, hdivides', rfl, rfl⟩)

/-- A rate that divides the oscillator gets the exact divider. -/
theorem osc_divider (hrate : 1 ≤ rate.toNat) (hdivides : 24000000 % rate.toNat = 0) :
    ∃ div, divRoundUp overflowChecks oscHz rate = some div ∧ rate.toNat * div.toNat = 24000000 := by
  have hdvd := Nat.dvd_of_mod_eq_zero hdivides
  have hle : rate.toNat ≤ 24000000 := Nat.le_of_dvd (by decide) hdvd
  obtain ⟨q, hq⟩ := hdvd
  obtain ⟨div, hdiv, hvalue⟩ := @divRoundUp_of_fits overflowChecks oscHz rate (by decide)
    (show 24000000 + rate.toNat < 2 ^ 64 by omega)
  refine ⟨div, hdiv, ?_⟩
  change _ = (24000000 + rate.toNat - 1) / rate.toNat at hvalue
  have hdivq : (24000000 + rate.toNat - 1) / rate.toNat = q := by
    rw [hq, Nat.add_sub_assoc hrate, Nat.mul_add_div (by omega), Nat.div_eq_of_lt (by omega), Nat.add_zero]
  rw [hvalue, hdivq, ← hq]

/-- Set and read agree for a rate that divides the oscillator when the divider has six bits. -/
theorem osc_agrees {clksel clksel' : ClkSelRegisters} {r div : UInt64} (hrate : 375000 ≤ rate.toNat)
    (hparent : Rk3588Cru.new.chosenParent rate = oscHz) (hdiv : rate.toNat * div.toNat = 24000000)
    (hclksel : clksel'.con77 = UInt32.hiwordWrite clksel.con77 (emmcWord sclkSfcSel24m div.toUInt32))
    (hr : r = Rk3588Cru.new.emmcRate clksel'.con77) : EmmcAgrees .new clksel clksel' rate r := by
  have hlo : 1 ≤ div.toNat := Nat.pos_of_ne_zero fun h => by simp [h] at hdiv
  have hhi : div.toNat ≤ 64 := by
    by_contra hlarge
    have := Nat.mul_le_mul hrate (Nat.lt_of_not_le hlarge)
    omega
  have hcast : div.toUInt32 = UInt32.ofNat div.toNat := by simp
  obtain ⟨hword, hread⟩ := osc_words div.toNat (by omega) hlo
  rw [← hcast] at hword hread
  have hrate' : r.toNat = rate.toNat := by
    rw [hr, hclksel, emmcRate_hiwordWrite _ (by rw [hword, UInt32.and_self]), hread, ← hdiv]
    exact Nat.mul_div_cancel _ hlo
  refine ⟨UInt64.le_iff_toNat_le.mpr hrate'.le, ?_, ?_⟩
  · rw [hparent, hrate']
    change _ = 24000000 / ((24000000 + rate.toNat - 1) / rate.toNat)
    rw [← hdiv, Nat.add_sub_assoc (by omega), Nat.mul_add_div (by omega),
      Nat.div_eq_of_lt (show rate.toNat - 1 < rate.toNat by omega), Nat.add_zero, Nat.mul_div_cancel _ hlo]
  · rw [hclksel]
    apply UInt32.hiwordWrite_and_of_disjoint
    rw [hword]
    decide

end

/-- Set and read agree exactly for the rates that divide the oscillator with a divider of six bits, and where a build
with overflow checks does not return. -/
theorem emmc_set_clk_agrees_iff (overflowChecks : Bool) (clksel : ClkSelRegisters) {rate : UInt64}
    (hrate : 1 ≤ rate.toNat) :
    (∀ r clksel', Rk3588Cru.new.mmcSetClk overflowChecks clksel cclkEmmc rate = some (.ok r, clksel') →
        EmmcAgrees .new clksel clksel' rate r) ↔
      24000000 % rate.toNat = 0 ∧ 375000 ≤ rate.toNat ∨ overflowChecks = true ∧ 2 ^ 64 ≤ 1188000000 + rate.toNat := by
  obtain ⟨hdivides, hparent, hsource⟩ | ⟨hosc, hdivides, hparent, hsource⟩ | ⟨hosc, hcpll, hparent, hsource⟩ :=
    @source_cases overflowChecks rate hrate
  · obtain ⟨div, hdiv, hvalue⟩ := @osc_divider overflowChecks rate hrate hdivides
    have hsource' : Rk3588Cru.new.emmcSource overflowChecks rate = some (sclkSfcSel24m, div) := by
      rw [hsource, hdiv]
      rfl
    have hle : rate.toNat ≤ 24000000 := Nat.le_of_dvd (by decide) (Nat.dvd_of_mod_eq_zero hdivides)
    rw [or_iff_left (by omega), and_iff_right hdivides]
    constructor
    · intro h
      by_contra hsmall
      have hlo : 1 ≤ div.toNat := Nat.pos_of_ne_zero fun h => by simp [h] at hvalue
      have hhi := Nat.le_mul_of_pos_left div.toNat hrate
      have hone := one_le_toUInt32 hlo (by omega)
      have hread := (h _ _ (mmcSetClk_ok_iff.mpr ⟨_, _, hsource', fun _ => hone, rfl, rfl⟩)).le
      rw [UInt64.le_iff_toNat_le] at hread
      exact hsmall ((le_emmcRate _).trans hread)
    · intro hlarge r clksel' hset
      obtain ⟨srcClk, div', hsome, -, rfl, rfl⟩ := mmcSetClk_ok_iff.mp hset
      rw [hsource'] at hsome
      cases hsome
      exact osc_agrees hlarge hparent hvalue rfl rfl
  · have hle : rate.toNat ≤ 1500000000 := Nat.le_of_dvd (by decide) (Nat.dvd_of_mod_eq_zero hdivides)
    have hfits : cpllHz.toNat + rate.toNat < 2 ^ 64 := by
      change 1500000000 + _ < _
      omega
    exact iff_of_false (not_agrees_of_misread hparent hsource (fun _ hlo hhi => (misread hlo hhi).1) hrate (by decide)
      (by decide) hfits) (by omega)
  · by_cases hfits : 1188000000 + rate.toNat < 2 ^ 64
    · exact iff_of_false (not_agrees_of_misread hparent hsource (fun _ hlo hhi => (misread hlo hhi).2) hrate (by decide)
        (by decide) hfits) (by omega)
    · cases overflowChecks with
      | false => exact iff_of_false (not_agrees_of_wrap hparent hsource (by omega)) (by simp; omega)
      | true =>
          refine iff_of_true (fun r clksel' hset => ?_) (.inr ⟨rfl, by omega⟩)
          obtain ⟨srcClk, div, hsome, -⟩ := mmcSetClk_ok_iff.mp hset
          rw [hsource] at hsome
          obtain ⟨div', hdiv', -⟩ := Option.map_eq_some_iff.mp hsome
          exact absurd ((divRoundUp_eq_some_iff.mp hdiv').2 rfl).1 hfits

theorem emmc_set_clk_agrees_iff_slow : ∃ clksel', Rk3588Cru.new.mmcSetClk true ⟨0, 0, 0xFF⟩ cclkEmmc 400000 =
      some (.ok 400000, clksel') ∧ EmmcAgrees .new ⟨0, 0, 0xFF⟩ clksel' 400000 400000 := by
  refine ⟨_, rfl, ?_⟩
  exact (@emmc_set_clk_agrees_iff true ⟨0, 0, 0xFF⟩ 400000 (by decide)).mpr (.inl (by decide)) _ _ rfl

/-- 200 MHz are meant as 198 MHz from the GPLL and set as 250 MHz from the CPLL. -/
theorem emmc_set_clk_faster : ∃ clksel', Rk3588Cru.new.mmcSetClk true ⟨0, 0, 0⟩ cclkEmmc 200000000 =
      some (.ok 250000000, clksel') ∧ ¬ EmmcAgrees .new ⟨0, 0, 0⟩ clksel' 200000000 250000000 :=
  ⟨_, rfl, fun h => absurd h.le (by decide)⟩

end Rknpu.Clock
