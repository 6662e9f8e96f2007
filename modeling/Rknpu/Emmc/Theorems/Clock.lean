import Rknpu.Emmc.Lemmas.Calls

/-!
# The card clock against the request

`dwcmshc_sdhci_emmc_set_clock` ends with a clock word of its own, so the divider that `rockchip_emmc_set_clock` has found
is gone when it returns: the card runs at the input clock. The request is an upper bound exactly if the input clock is.
-/

namespace Rknpu.Emmc

open Prog

/-! ## Clock words -/

/-- The ten bits of a divider. -/
def encodedDivider (word : UInt16) : Nat :=
  ((word >>> emmcDividerShift) &&& 0xFF).toNat + 256 * ((word >>> emmcDividerHiShift) &&& 0x3).toNat

/-- What the input clock is divided by: one more than the field in the programmable mode, else twice the field. -/
def divisor (word : UInt16) : Nat :=
  if word &&& emmcProgClockMode ≠ 0 then encodedDivider word + 1
  else if encodedDivider word = 0 then 1
  else 2 * encodedDivider word

def selectedFrequency (inputClk : UInt64) (word : UInt16) : ℚ := inputClk.toNat / divisor word

def HostCall.clockWrite : HostCall → Option UInt16
  | .writeReg16 offset value => if offset = emmcClockControl then some value else none
  | _ => none

/-- The content of `EMMC_CLOCK_CONTROL` after some calls, if they write it. -/
def clockWord (calls : List HostCall) : Option UInt16 := (calls.filterMap HostCall.clockWrite).getLast?

theorem clockWord_append (calls calls' : List HostCall) :
    clockWord (calls ++ calls') = (clockWord calls').or (clockWord calls) := by
  simp [clockWord, List.getLast?_append]

theorem clockWord_write (word : UInt16) : clockWord [.writeReg16 emmcClockControl word] = some word := rfl

/-- The word that `enable_card_clock` leaves. -/
def enabledWord (clk : UInt16) : UInt16 := (clk ||| emmcClockIntEn) &&& ~~~emmcClockIntStable ||| emmcClockCardEn

theorem divisor_enabledWord_zero : divisor (enabledWord 0) = 1 := by decide

/-! ## Runs of the parts -/

section

variable {ok : ∀ call : HostCall, call.Answer → Prop} {host : EMmcHost}

theorem wp_awaitInhibit (timeout : Nat) :
    Wp ok ((awaitInhibit timeout).run host) (fun _ _ => True) (· = .err .timeout) := by
  induction timeout with
  | zero => simp [awaitInhibit]
  | succ timeout ih => simp [awaitInhibit, ih]

theorem wp_awaitStable (timeout : Nat) :
    Wp ok ((awaitStable timeout).run host) (fun _ _ => True) (· = .err .timeout) := by
  induction timeout with
  | zero => simp [awaitStable]
  | succ timeout ih => simp [awaitStable, ih]

theorem wp_awaitDll (timeout : Nat) :
    Wp ok ((awaitDll timeout).run host) (fun _ _ => True) (· = .err .timeout) := by
  induction timeout with
  | zero => simp [awaitDll]
  | succ timeout ih => simp [awaitDll, ih]

/-- Whatever came before, the last word is the enabled one. -/
theorem wp_enableCardClock (clk : UInt16) :
    Wp ok ((enableCardClock clk).run host) (fun calls _ => clockWord calls = some (enabledWord clk))
      (· = .err .timeout) := by
  simp only [enableCardClock, wp_run_bind, wp_writeReg16]
  intro _
  refine (wp_awaitStable 20).mono (fun calls r _ _ => ?_) fun _ => id
  simp only [clockWord_append, clockWord_write, Option.some_or, enabledWord]

theorem wp_bypassDll : Wp ok (bypassDll.run host) (fun _ _ => True) (· = .err .timeout) := by
  simp [bypassDll]

theorem wp_enableDll (data : EMmcChipConfig) (timing : UInt32) :
    Wp ok ((enableDll data timing).run host) (fun _ _ => True) (· = .err .timeout) := by
  simp only [enableDll, wp_run_bind, wp_writeReg, wp_delayUs]
  intro _ _ _ _ _
  refine (wp_awaitDll 500).mono (fun calls r _ => ?_) fun _ => id
  simp [selectTxTap]

/-- The last word of a run does not depend on the divider. -/
theorem wp_dwcmshcSdhciEmmcSetClock {freq : UInt32} {exc : Stop → Prop} (hcard : exc (.panic .noCard))
    (htimeout : exc (.err .timeout))
    (hset : Wp ok ((rockchipEmmcSetClock freq).run host) (fun _ _ => True) exc) :
    Wp ok ((dwcmshcSdhciEmmcSetClock freq).run host) (fun calls _ => clockWord calls = some (enabledWord 0)) exc := by
  have hexc : ∀ stop, stop = .err .timeout → exc stop := by
    rintro stop rfl
    exact htimeout
  simp only [dwcmshcSdhciEmmcSetClock, wp_run_bind, wp_getCard]
  refine ⟨fun card _ => hset.mono (fun calls r hr => ?_) fun _ => id, fun _ => hcard⟩
  simp only [wp_writeReg16, wp_run_ite]
  intro _
  have hlast : ∀ calls' : List HostCall, ∀ r' : Unit × EMmcHost, True →
      Wp ok ((enableCardClock 0).run r'.2)
        (fun calls'' _ => clockWord ([] ++ (calls ++ ([.writeReg16 emmcClockControl 0] ++ (calls' ++ calls'')))) =
          some (enabledWord 0)) exc := by
    intro calls' r' _
    refine (wp_enableCardClock 0).mono (fun calls'' _ h => ?_) hexc
    simp only [clockWord_append, h, Option.some_or]
  exact ⟨fun _ => wp_run_bind.mpr ((wp_enableDll _ _).mono hlast hexc),
    fun _ => wp_run_bind.mpr (wp_bypassDll.mono hlast hexc)⟩

theorem wp_chooseDivider {inputClk freq : UInt32} (h : 1 ≤ programmableDiv inputClk freq) :
    Wp ok ((chooseDivider inputClk freq).run host) (fun _ _ => True) (· ≠ .panic .underflow) := by
  simp [chooseDivider, checkedSub, h]

end

/-! ## A given controller -/

/-- The clock hook returns `inputClk`, and the two registers that the search looks at have the given content. -/
def Controller (inputClk : UInt64) (version : UInt16) (caps2 : UInt32) : ∀ call : HostCall, call.Answer → Prop
  | .emmcSetClk _, r => r = .ok inputClk
  | .readReg16 offset, v => offset = emmcHostCntrlVer → v = version
  | .readReg offset, v => offset = emmcCapabilities2 → v = caps2
  | _, _ => True

section

variable {inputClk : UInt64} {version : UInt16} {caps2 : UInt32} {host : EMmcHost} {freq : UInt32}

theorem wp_rockchipEmmcSetClock (h : 1 ≤ programmableDiv inputClk.toUInt32 freq) :
    Wp (Controller inputClk version caps2) ((rockchipEmmcSetClock freq).run host) (fun _ _ => True)
      (· ≠ .panic .underflow) := by
  have htimeout : ∀ stop, stop = .err .timeout → stop ≠ Stop.panic .underflow := by
    rintro stop rfl
    simp
  simp only [rockchipEmmcSetClock, wp_run_bind]
  refine (wp_awaitInhibit 20).mono (fun calls r _ => ?_) htimeout
  simp only [wp_writeReg16, wp_run_ite, wp_run_pure, wp_run_bind, wp_emmcSetClk]
  refine fun _ => ⟨fun _ => trivial, fun _ => ⟨fun rate hrate => ?_, by simp⟩⟩
  cases hrate
  refine (wp_chooseDivider h).mono (fun calls r _ _ => ?_) fun _ => id
  exact (wp_enableCardClock _).mono (fun _ _ _ => trivial) htimeout

/-! ## A run that returns

The inhibit bits are clear, the clock is stable and the loop is locked at the first poll. -/

theorem returns_writeReg (offset value : UInt32) :
    Returns (Controller inputClk version caps2) ((writeReg offset value).run host) ((), host) :=
  returns_run_ask trivial

theorem returns_writeReg16 (offset : UInt32) (value : UInt16) :
    Returns (Controller inputClk version caps2) ((writeReg16 offset value).run host) ((), host) :=
  returns_run_ask trivial

theorem returns_delayUs (us : UInt64) :
    Returns (Controller inputClk version caps2) ((delayUs us).run host) ((), host) :=
  returns_run_ask trivial

theorem returns_awaitInhibit (timeout : Nat) :
    Returns (Controller inputClk version caps2) ((awaitInhibit timeout).run host) ((), host) := by
  have hread : Controller inputClk version caps2 (.readReg emmcPresentState) (0 : UInt32) := nofun
  cases timeout with
  | zero => exact returns_seq (returns_run_ask hread) (by simp)
  | succ timeout => exact returns_seq (returns_run_ask hread) (by simp)

theorem returns_awaitStable (timeout : Nat) :
    Returns (Controller inputClk version caps2) ((awaitStable (timeout + 1)).run host) ((), host) := by
  have hread : Controller inputClk version caps2 (.readReg16 emmcClockControl) emmcClockIntStable := nofun
  exact returns_seq (returns_run_ask hread) (by simp [emmcClockIntStable])

theorem returns_awaitDll (timeout : Nat) :
    Returns (Controller inputClk version caps2) ((awaitDll (timeout + 1)).run host) ((), host) := by
  have hread : Controller inputClk version caps2 (.readReg dwcmshcEmmcDllStatus0) dwcmshcEmmcDllLocked := nofun
  have hlocked : dllLockWoTmout dwcmshcEmmcDllLocked := by decide
  exact returns_seq (returns_run_ask hread) (by simp [hlocked])

theorem returns_enableCardClock (clk : UInt16) :
    Returns (Controller inputClk version caps2) ((enableCardClock clk).run host) ((), host) :=
  returns_seq (returns_writeReg16 _ _) (returns_seq (returns_awaitStable 19) (returns_writeReg16 _ _))

theorem returns_bypassDll : Returns (Controller inputClk version caps2) (bypassDll.run host) ((), host) := by
  have hread : Controller inputClk version caps2 (.readReg dwcmshcHostCtrl3) (0 : UInt32) := nofun
  refine returns_seq (returns_writeReg _ _) (returns_seq (returns_run_ask hread) ?_)
  refine returns_seq (returns_writeReg _ _) (returns_seq (returns_writeReg _ _) ?_)
  refine returns_seq (returns_writeReg _ _) (returns_seq (returns_writeReg _ _) ?_)
  exact returns_seq (returns_writeReg _ _) (returns_writeReg _ _)

theorem returns_selectTxTap (timing tapValue : UInt32) :
    Returns (Controller inputClk version caps2) ((selectTxTap .rk3568Config timing tapValue).run host) (16, host) := by
  have hflag : EMmcChipConfig.rk3568Config.flags &&& rkDllCmdOut = 0 := by decide
  simp only [selectTxTap, hflag, ne_eq, not_true_eq_false, false_and, if_false]
  rfl

theorem returns_enableDll (timing : UInt32) :
    Returns (Controller inputClk version caps2) ((enableDll .rk3568Config timing).run host) ((), host) := by
  have hread : Controller inputClk version caps2 (.readReg dwcmshcEmmcDllStatus0) (0 : UInt32) := nofun
  refine returns_seq (returns_writeReg _ _) (returns_seq (returns_delayUs _) ?_)
  refine returns_seq (returns_writeReg _ _) (returns_seq (returns_writeReg _ _) ?_)
  refine returns_seq (returns_writeReg _ _) (returns_seq (returns_awaitDll 499) ?_)
  refine returns_seq (returns_run_ask hread) (returns_seq (returns_writeReg _ _) ?_)
  refine returns_seq (returns_selectTxTap _ _) ?_
  exact returns_seq (returns_writeReg _ _) (returns_writeReg _ _)

/-- The search of the programmable mode is the only step that can go wrong, and does so without a divider. -/
theorem returns_chooseDivider
    (h : Wp (Controller inputClk version caps2) ((chooseDivider inputClk.toUInt32 freq).run host) (fun _ _ => True)
      (· ≠ .panic .underflow)) :
    ∃ r, Returns (Controller inputClk version caps2) ((chooseDivider inputClk.toUInt32 freq).run host) (r, host) := by
  have hversion : Controller inputClk version caps2 (.readReg16 emmcHostCntrlVer) version := fun _ => rfl
  have hcaps2 : Controller inputClk version caps2 (.readReg emmcCapabilities2) caps2 := fun _ => rfl
  by_cases hspec : version &&& 0xFF ≥ emmcSpec300
  · by_cases hmul : (caps2 &&& emmcClockMulMask) >>> emmcClockMulShift ≠ 0
    · have hdiv : 1 ≤ programmableDiv inputClk.toUInt32 freq := by
        by_contra hdiv
        simp only [chooseDivider, wp_run_bind, wp_readReg16, wp_run_ite, wp_readReg] at h
        have hsub := ((h version hversion).1 hspec caps2 hcaps2).1 hmul
        simp [checkedSub, hdiv] at hsub
      refine ⟨(programmableDiv inputClk.toUInt32 freq - 1, emmcProgClockMode), ?_⟩
      refine returns_seq (returns_run_ask hversion) ?_
      rw [if_pos hspec]
      refine returns_seq (returns_run_ask hcaps2) ?_
      simp [hmul, checkedSub, hdiv]
    · refine ⟨(evenDiv inputClk.toUInt32 freq >>> 1, 0), ?_⟩
      refine returns_seq (returns_run_ask hversion) ?_
      rw [if_pos hspec]
      refine returns_seq (returns_run_ask hcaps2) ?_
      rw [if_neg hmul]
      rfl
  · refine ⟨(powerDiv inputClk.toUInt32 freq >>> 1, 0), ?_⟩
    refine returns_seq (returns_run_ask hversion) ?_
    rw [if_neg hspec]
    rfl

theorem returns_emmcSetClk (rate : UInt64) :
    Returns (Controller inputClk version caps2) ((emmcSetClk rate).run host) (inputClk, host) := by
  have hclk : Controller inputClk version caps2 (.emmcSetClk rate) (.ok inputClk) := rfl
  exact returns_seq (returns_run_ask hclk) rfl

theorem returns_rockchipEmmcSetClock (hfreq : freq ≠ 0)
    (h : Wp (Controller inputClk version caps2) ((rockchipEmmcSetClock freq).run host) (fun _ _ => True)
      (· ≠ .panic .underflow)) :
    Returns (Controller inputClk version caps2) ((rockchipEmmcSetClock freq).run host) ((), host) := by
  have hchoose : Wp (Controller inputClk version caps2) ((chooseDivider inputClk.toUInt32 freq).run host)
      (fun _ _ => True) (· ≠ .panic .underflow) := by
    simp only [rockchipEmmcSetClock, wp_run_bind] at h
    obtain ⟨calls, h⟩ := h.of_returns (returns_awaitInhibit 20)
    simp only [wp_writeReg16, wp_run_ite, wp_run_bind, wp_emmcSetClk] at h
    exact (((h trivial).2 hfreq).1 inputClk rfl).mono (fun _ _ _ => trivial) fun _ => id
  obtain ⟨r, hr⟩ := returns_chooseDivider hchoose
  refine returns_seq (returns_awaitInhibit 20) (returns_seq (returns_writeReg16 _ _) ?_)
  rw [if_neg hfreq]
  refine returns_seq (returns_emmcSetClk _) (returns_seq hr ?_)
  exact returns_seq (returns_writeReg16 _ _) (returns_enableCardClock _)

theorem returns_dwcmshcSdhciEmmcSetClock {card : EMmcCard} {post : List HostCall → Unit × EMmcHost → Prop}
    (hcard : host.card = some card) (hfreq : freq ≠ 0)
    (h : Wp (Controller inputClk version caps2) ((dwcmshcSdhciEmmcSetClock freq).run host) post
      (· ≠ .panic .underflow)) :
    Returns (Controller inputClk version caps2) ((dwcmshcSdhciEmmcSetClock freq).run host) ((), host) := by
  have hset : Wp (Controller inputClk version caps2) ((rockchipEmmcSetClock freq).run host) (fun _ _ => True)
      (· ≠ .panic .underflow) := by
    simp only [dwcmshcSdhciEmmcSetClock, wp_run_bind, wp_getCard] at h
    exact (h.1 card hcard).mono (fun _ _ _ => trivial) fun _ => id
  refine returns_seq (returns_getCard hcard) (returns_seq (returns_rockchipEmmcSetClock hfreq hset) ?_)
  refine returns_seq (returns_writeReg16 _ _) ?_
  split
  · exact returns_seq (returns_enableDll _) (returns_enableCardClock 0)
  · exact returns_seq returns_bypassDll (returns_enableCardClock 0)

end

/-! ## The request as a bound -/

/-- In every run that returns the clock word selects at most `freq`, and no run underflows. -/
def ClockWithinRequest (host : EMmcHost) (inputClk : UInt64) (version : UInt16) (caps2 freq : UInt32) : Prop :=
  Wp (Controller inputClk version caps2) ((dwcmshcSdhciEmmcSetClock freq).run host)
    (fun calls _ => ∃ word, clockWord calls = some word ∧ selectedFrequency inputClk word ≤ freq.toNat)
    (· ≠ .panic .underflow)

theorem selectedFrequency_enabledWord_zero (inputClk : UInt64) :
    selectedFrequency inputClk (enabledWord 0) = inputClk.toNat := by
  rw [selectedFrequency, divisor_enabledWord_zero, Nat.cast_one, div_one]

theorem programmableDiv_eq_one {inputClk freq : UInt32} (h : inputClk ≤ freq) : programmableDiv inputClk freq = 1 := by
  have hrange : List.range' 1 1024 = 1 :: List.range' 2 1023 := List.range'_succ
  have hone : inputClk / UInt32.ofNat 1 ≤ freq := by
    rw [show UInt32.ofNat 1 = 1 from rfl, UInt32.div_one]
    exact h
  rw [programmableDiv, firstDivider, hrange, List.map_cons, List.find?_cons_of_pos (by simpa using hone)]
  rfl

theorem clockWithinRequest_of_le {host : EMmcHost} {inputClk : UInt64} {version : UInt16} {caps2 freq : UInt32}
    (h : inputClk.toNat ≤ freq.toNat) : ClockWithinRequest host inputClk version caps2 freq := by
  have hclk : inputClk.toUInt32 ≤ freq := by
    rw [UInt32.le_iff_toNat_le, UInt64.toNat_toUInt32]
    exact (Nat.mod_le _ _).trans h
  have hdiv : 1 ≤ programmableDiv inputClk.toUInt32 freq := by
    rw [programmableDiv_eq_one hclk]
    exact UInt32.le_refl 1
  refine (wp_dwcmshcSdhciEmmcSetClock nofun nofun (wp_rockchipEmmcSetClock hdiv)).mono (fun calls _ hword => ?_) fun _ => id
  refine ⟨enabledWord 0, hword, ?_⟩
  rw [selectedFrequency_enabledWord_zero]
  exact_mod_cast h

theorem le_of_clockWithinRequest {host : EMmcHost} {card : EMmcCard} {inputClk : UInt64} {version : UInt16}
    {caps2 freq : UInt32} (hcard : host.card = some card) (hfreq : 1 ≤ freq)
    (h : ClockWithinRequest host inputClk version caps2 freq) : inputClk.toNat ≤ freq.toNat := by
  have hne : freq ≠ 0 := by
    rintro rfl
    exact absurd hfreq (by decide)
  have hlast : Wp (Controller inputClk version caps2) ((dwcmshcSdhciEmmcSetClock freq).run host)
      (fun calls _ => clockWord calls = some (enabledWord 0)) fun _ => True :=
    wp_dwcmshcSdhciEmmcSetClock trivial trivial (Wp.trivial _)
  obtain ⟨calls, ⟨word, hword, hle⟩, hword'⟩ :=
    (h.and hlast).of_returns (returns_dwcmshcSdhciEmmcSetClock hcard hne h)
  obtain rfl : word = enabledWord 0 := Option.some.inj (hword.symm.trans hword')
  rw [selectedFrequency_enabledWord_zero] at hle
  exact_mod_cast hle

theorem clock_within_request_iff (host : EMmcHost) (inputClk : UInt64) (version : UInt16) (caps2 freq : UInt32)
    (hfreq : 1 ≤ freq) :
    ClockWithinRequest host inputClk version caps2 freq ↔ host.card = none ∨ inputClk.toNat ≤ freq.toNat := by
  cases hcard : host.card with
  | none =>
      refine iff_of_true ?_ (.inl rfl)
      simp [ClockWithinRequest, dwcmshcSdhciEmmcSetClock, hcard]
  | some card =>
      rw [or_iff_right (by simp)]
      exact ⟨le_of_clockWithinRequest hcard hfreq, clockWithinRequest_of_le⟩

/-- A host with a card just added. -/
def freshHost : EMmcHost where
  card := some (.init .unknown)
  voltages := 0
  quirks := 0
  hostCaps := 0

theorem clock_within_request_identification :
    (1 : UInt32) ≤ 400000 ∧ ClockWithinRequest freshHost 375000 5 0 400000 :=
  ⟨by decide, (clock_within_request_iff freshHost 375000 5 0 400000 (by decide)).mpr (.inr (by decide))⟩

/-- `Clock.Rk3588Cru.mmcSetClk` answers 200 MHz with 250 MHz. The divider 2 that the search finds for it is not in the last word. -/
theorem clock_exceeds_request : ¬ ClockWithinRequest freshHost 250000000 5 0 200000000 := by
  intro h
  exact absurd (le_of_clockWithinRequest rfl (by decide) h) (by decide)

end Rknpu.Emmc
