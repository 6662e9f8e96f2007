import Rknpu.Clock.Cru

/-!
# The clocks of the NPU

Each clock has its own bits of a select register, and a write enables only those. The search for a parent and a divider
finds the largest rate that does not exceed the request.
-/

namespace Rknpu.Clock

/-! ## The search -/

/-- A parent with its index, and a divider. -/
abbrev Candidate := (UInt64 × Nat) × Nat

namespace Candidate

def rate (c : Candidate) : UInt64 := c.1.1 / UInt64.ofNat c.2

end Candidate

def candidates (parents : List UInt64) : List Candidate := parents.zipIdx.product (List.range' 1 32)

/-- What the search has found: nothing, or a candidate and its distance to the request. -/
def Best.of (rate : UInt64) : Option Candidate → Best
  | none => {}
  | some c => { parentIdx := c.1.2, div := c.2, rate := c.rate, minDiff := rate - c.rate }

theorem search_eq_foldl (parents : List UInt64) (rate : UInt64) :
    Best.search parents rate =
      (candidates parents).foldl (fun best c => Best.consider rate c.1.1 c.1.2 best c.2) {} := by
  simp only [Best.search, candidates, List.product, List.foldl_flatMap, List.foldl_map]

theorem consider_none {rate : UInt64} {c : Candidate} (hle : c.rate ≤ rate) (hpos : 0 < c.rate) :
    Best.consider rate c.1.1 c.1.2 (Best.of rate none) c.2 = Best.of rate (some c) := by
  have hdiff : rate - c.rate < 0xFFFFFFFFFFFFFFFF := by
    rw [UInt64.lt_iff_toNat_lt, UInt64.toNat_sub_of_le _ _ hle]
    rw [UInt64.lt_iff_toNat_lt] at hpos
    have := rate.toNat_lt
    change rate.toNat - c.rate.toNat < 2 ^ 64 - 1
    change 0 < c.rate.toNat at hpos
    omega
  change (if c.rate ≤ rate then if rate - c.rate < 0xFFFFFFFFFFFFFFFF then _ else _ else _) = _
  rw [if_pos hle, if_pos hdiff]
  rfl

theorem consider_some {rate : UInt64} {b c : Candidate} (hb : b.rate ≤ rate) (hc : c.rate ≤ rate) :
    Best.consider rate c.1.1 c.1.2 (Best.of rate (some b)) c.2 =
      Best.of rate (if b.rate.toNat < c.rate.toNat then some c else some b) := by
  have hiff : rate - c.rate < rate - b.rate ↔ b.rate.toNat < c.rate.toNat := by
    rw [UInt64.lt_iff_toNat_lt, UInt64.toNat_sub_of_le _ _ hc, UInt64.toNat_sub_of_le _ _ hb]
    rw [UInt64.le_iff_toNat_le] at hb hc
    omega
  change (if c.rate ≤ rate then if rate - c.rate < rate - b.rate then _ else _ else _) = _
  rw [if_pos hc]
  simp only [hiff]
  split <;> rfl

/-- The search keeps the first of the largest rates. -/
theorem foldl_consider_eq (rate : UInt64) (cs : List Candidate) (hpos : ∀ c ∈ cs, 0 < c.rate) :
    cs.foldl (fun best c => Best.consider rate c.1.1 c.1.2 best c.2) {} =
      Best.of rate ((cs.filter (·.rate ≤ rate)).argmax (·.rate.toNat)) := by
  induction cs using List.reverseRecOn with
  | nil => rfl
  | append_singleton cs c ih =>
      have ih' := ih fun b hb => hpos b (List.mem_append_left _ hb)
      have hc : 0 < c.rate := hpos c (by simp)
      rw [List.foldl_append, List.foldl_cons, List.foldl_nil, ih', List.filter_append]
      by_cases hle : c.rate ≤ rate
      · rw [List.filter_singleton, decide_eq_true hle, cond_true, List.argmax_concat]
        cases hbest : (cs.filter (·.rate ≤ rate)).argmax (·.rate.toNat) with
        | none => exact consider_none hle hc
        | some b =>
            have hb : b.rate ≤ rate := by simpa using (List.mem_filter.mp (List.argmax_mem hbest)).2
            exact consider_some hb hle
      · rw [List.filter_singleton, decide_eq_false hle]
        change (if c.rate ≤ rate then _ else _) = _
        rw [if_neg hle]
        simp

/-- The rates that a divided clock can have without exceeding a request. -/
def Reachable (parents : List UInt64) (rate : UInt64) : Set Nat :=
  {v | ∃ parent ∈ parents, ∃ div, 1 ≤ div ∧ div ≤ 32 ∧ v = parent.toNat / div ∧ v ≤ rate.toNat}

theorem mem_candidates {parents : List UInt64} {c : Candidate} :
    c ∈ candidates parents ↔ parents[c.1.2]? = some c.1.1 ∧ 1 ≤ c.2 ∧ c.2 ≤ 32 := by
  obtain ⟨⟨parent, idx⟩, div⟩ := c
  simp only [candidates, List.pair_mem_product, List.mk_mem_zipIdx_iff_getElem?, List.mem_range'_1]
  exact and_congr_right fun _ => by omega

theorem toNat_rate {c : Candidate} (h : c.2 ≤ 32) : c.rate.toNat = c.1.1.toNat / c.2 := by
  rw [Candidate.rate, UInt64.toNat_div, UInt64.toNat_ofNat_of_lt' (show c.2 < 2 ^ 64 by omega)]

theorem mem_reachable {parents : List UInt64} {rate : UInt64} {v : Nat} :
    v ∈ Reachable parents rate ↔ ∃ c ∈ candidates parents, c.rate ≤ rate ∧ v = c.rate.toNat := by
  constructor
  · rintro ⟨parent, hparent, div, hlo, hhi, rfl, hle⟩
    obtain ⟨idx, hidx⟩ := List.mem_iff_getElem?.mp hparent
    have hrate : (Candidate.rate ((parent, idx), div)).toNat = parent.toNat / div := toNat_rate hhi
    refine ⟨((parent, idx), div), mem_candidates.mpr ⟨hidx, hlo, hhi⟩, ?_, hrate.symm⟩
    rw [UInt64.le_iff_toNat_le, hrate]
    exact hle
  · rintro ⟨c, hc, hle, rfl⟩
    obtain ⟨hparent, hlo, hhi⟩ := mem_candidates.mp hc
    exact ⟨_, List.mem_of_getElem? hparent, c.2, hlo, hhi, toNat_rate hhi, UInt64.le_iff_toNat_le.mp hle⟩

/-- The search finds nothing exactly when nothing is reachable, and else a candidate with the largest rate. -/
theorem search_cases {parents : List UInt64} (hpos : ∀ c ∈ candidates parents, 0 < c.rate) (rate : UInt64) :
    ((Best.search parents rate).rate = 0 ∧ Reachable parents rate = ∅) ∨
      ∃ c ∈ candidates parents, Best.search parents rate = Best.of rate (some c) ∧ c.rate ≠ 0 ∧
        IsGreatest (Reachable parents rate) c.rate.toNat := by
  rw [search_eq_foldl, foldl_consider_eq rate _ hpos]
  cases hbest : ((candidates parents).filter (·.rate ≤ rate)).argmax (·.rate.toNat) with
  | none =>
      refine .inl ⟨rfl, Set.eq_empty_of_forall_notMem fun v hv => ?_⟩
      obtain ⟨c, hc, hle, -⟩ := mem_reachable.mp hv
      exact List.filter_eq_nil_iff.mp (List.argmax_eq_none.mp hbest) c hc (decide_eq_true hle)
  | some c =>
      obtain ⟨hc, hle⟩ := List.mem_filter.mp (List.argmax_mem hbest)
      rw [decide_eq_true_eq] at hle
      refine .inr ⟨c, hc, rfl, (UInt64.ne_of_lt (hpos c hc)).symm, mem_reachable.mpr ⟨c, hc, hle, rfl⟩, ?_⟩
      intro v hv
      obtain ⟨b, hb, hble, rfl⟩ := mem_reachable.mp hv
      have hmem : b ∈ (candidates parents).filter (·.rate ≤ rate) := List.mem_filter.mpr ⟨hb, decide_eq_true hble⟩
      exact @List.le_of_mem_argmax _ _ _ (·.rate.toNat) _ _ _ hmem hbest

/-! ## The bits of a clock -/

/-- The bits of the two registers that belong to a clock. -/
def place (clkId : UInt32) : UInt32 × UInt32 :=
  if clkId = hclkNpuRoot then (0x3, 0)
  else if clkId = clkNpuDsu0 then (0x3FC, 0)
  else if clkId = pclkNpuRoot then (0, 0x6)
  else if clkId = hclkNpuCm0Root then (0, 0x60)
  else if clkId = clkNpuCm0Rtc then (0, 0x1F80)
  else if clkId = clkNputimerRoot then (0, 0x8)
  else (0, 0)

def npuClocks : List UInt32 := [hclkNpuRoot, clkNpuDsu0, pclkNpuRoot, hclkNpuCm0Root, clkNpuCm0Rtc, clkNputimerRoot]

theorem place_of_not_mem {clkId : UInt32} (h : clkId ∉ npuClocks) : place clkId = (0, 0) := by
  simp only [npuClocks, List.mem_cons, List.not_mem_nil, or_false, not_or] at h
  simp [place, h]

def Disjoint (p q : UInt32 × UInt32) : Prop := p.1 &&& q.1 = 0 ∧ p.2 &&& q.2 = 0

instance (p q : UInt32 × UInt32) : Decidable (Disjoint p q) := inferInstanceAs (Decidable (_ ∧ _))

/-- No two clocks share a bit. -/
theorem place_disjoint {clkId other : UInt32} (h : other ≠ clkId) : Disjoint (place clkId) (place other) := by
  have hall : npuClocks.Pairwise fun a b => Disjoint (place a) (place b) := by decide
  have hsymm : Std.Symm fun a b => Disjoint (place a) (place b) :=
    ⟨fun a b ⟨h73, h74⟩ => ⟨(UInt32.and_comm ..).trans h73, (UInt32.and_comm ..).trans h74⟩⟩
  by_cases hid : clkId ∈ npuClocks
  · by_cases hother : other ∈ npuClocks
    · exact hall.forall hid hother h.symm
    · simp [Disjoint, place_of_not_mem hother]
  · simp [Disjoint, place_of_not_mem hid]

/-- Bits behind a shift only depend on a mask that covers them. -/
theorem bits_congr {w w' p shift mask : UInt32} (hcover : bits p shift mask = mask) (h : w &&& p = w' &&& p) :
    bits w shift mask = bits w' shift mask := by
  have hcut : ∀ w, bits (w &&& p) shift mask = bits w shift mask := by
    intro w
    rw [bits, UInt32.shiftRight_and, UInt32.and_assoc]
    exact congrArg (w >>> shift &&& ·) hcover
  rw [← hcut w, h, hcut]

/-- A clock is read from its own bits. -/
theorem npuGetClk_congr {reg reg' : ClkSelRegisters} {clkId : UInt32}
    (h73 : reg.con73 &&& (place clkId).1 = reg'.con73 &&& (place clkId).1)
    (h74 : reg.con74 &&& (place clkId).2 = reg'.con74 &&& (place clkId).2) :
    npuGetClk reg clkId = npuGetClk reg' clkId := by
  by_cases hid : clkId ∈ npuClocks
  · simp only [npuClocks, List.mem_cons, List.not_mem_nil, or_false] at hid
    rcases hid with rfl | rfl | rfl | rfl | rfl | rfl
    · exact congrArg (muxRate _) (bits_congr (by decide) h73)
    · exact congrArg₂ (dividedRate _) (bits_congr (by decide) h73) (bits_congr (by decide) h73)
    · exact congrArg (muxRate _) (bits_congr (by decide) h74)
    · exact congrArg (muxRate _) (bits_congr (by decide) h74)
    · exact congrArg₂ (dividedRate _) (bits_congr (by decide) h74) (bits_congr (by decide) h74)
    · exact congrArg (muxRate _) (bits_congr (by decide) h74)
  · simp only [npuClocks, List.mem_cons, List.not_mem_nil, or_false, not_or] at hid
    simp [npuGetClk, hid]

/-- A clock reads back as it was set, and the others read as before. -/
structure RoundTrip (reg reg' : ClkSelRegisters) (clkId : UInt32) (r : UInt64) : Prop where
  same : npuGetClk reg' clkId = .ok r
  others : ∀ other, other ≠ clkId → npuGetClk reg' other = npuGetClk reg other

section

variable {reg : ClkSelRegisters} {clkId word : UInt32} {r : UInt64}

theorem roundTrip_con73 (hplace : place clkId = (word >>> 16, 0)) (hget : npuGetClk { reg with con73 := word } clkId = .ok r) :
    RoundTrip reg (setCon73 reg word) clkId r where
  same := by
    rw [← hget]
    apply npuGetClk_congr
    · rw [hplace]
      exact UInt32.hiwordWrite_and_of_enabled (UInt32.and_self ..)
    · rfl
  others other hother := by
    obtain ⟨h73, -⟩ := place_disjoint hother
    rw [hplace] at h73
    exact npuGetClk_congr (UInt32.hiwordWrite_and_of_disjoint h73) rfl

theorem roundTrip_con74 (hplace : place clkId = ((0 : UInt32), word >>> 16)) (hget : npuGetClk { reg with con74 := word } clkId = .ok r) :
    RoundTrip reg (setCon74 reg word) clkId r where
  same := by
    rw [← hget]
    apply npuGetClk_congr
    · rfl
    · rw [hplace]
      exact UInt32.hiwordWrite_and_of_enabled (UInt32.and_self ..)
  others other hother := by
    obtain ⟨-, h74⟩ := place_disjoint hother
    rw [hplace] at h74
    exact npuGetClk_congr rfl (UInt32.hiwordWrite_and_of_disjoint h74)

end

/-! ## Setting a clock -/

/-- A word that enables the bits of a clock and holds the index and the divider of a candidate. -/
structure Holds (word enable muxMask muxShift divShift : UInt32) (c : Candidate) : Prop where
  enabled : word >>> 16 = enable
  index : (bits word muxShift muxMask).toNat = c.1.2
  divider : (bits word divShift 0x1F + 1).toUInt64 = UInt64.ofNat c.2

instance (word enable muxMask muxShift divShift : UInt32) (c : Candidate) :
    Decidable (Holds word enable muxMask muxShift divShift c) :=
  decidable_of_iff (word >>> 16 = enable ∧ (bits word muxShift muxMask).toNat = c.1.2 ∧
      (bits word divShift 0x1F + 1).toUInt64 = UInt64.ofNat c.2)
    ⟨fun ⟨h, h', h''⟩ => ⟨h, h', h''⟩, fun ⟨h, h', h''⟩ => ⟨h, h', h''⟩⟩

theorem dsu0_holds : ∀ c ∈ candidates dsu0Parents, 0 < c.rate ∧
    Holds (dividedWord 0x7 7 2 (Best.of 0 (some c))) 0x3FC 0x7 7 2 c := by decide +kernel

theorem cm0Rtc_holds : ∀ c ∈ candidates cm0RtcParents, 0 < c.rate ∧
    Holds (dividedWord 0x1 12 7 (Best.of 0 (some c))) 0x1F80 0x1 12 7 c := by decide +kernel

theorem Holds.dividedRate {word enable muxMask muxShift divShift : UInt32} {c : Candidate} {parents : List UInt64}
    (h : Holds word enable muxMask muxShift divShift c) (hc : c ∈ candidates parents) :
    dividedRate parents (bits word muxShift muxMask) (bits word divShift 0x1F) = .ok c.rate := by
  rw [Clock.dividedRate, muxRate, h.index, (mem_candidates.mp hc).1]
  change Except.ok (c.1.1 / (bits word divShift 0x1F + 1).toUInt64) = _
  rw [h.divider]
  rfl

/-- The two outcomes of a divided clock's arm. -/
theorem divided_cases {parents : List UInt64} (hpos : ∀ c ∈ candidates parents, 0 < c.rate) (rate : UInt64)
    (reg : ClkSelRegisters) (write : Best → ClkSelRegisters) {result : Except Unit UInt64 × ClkSelRegisters}
    (h : (if (Best.search parents rate).rate = 0 then (.error (), reg)
      else (.ok (Best.search parents rate).rate, write (Best.search parents rate))) = result) :
    (result = (.error (), reg) ∧ Reachable parents rate = ∅) ∨
      ∃ c ∈ candidates parents, result = (.ok c.rate, write (Best.of rate (some c))) ∧
        IsGreatest (Reachable parents rate) c.rate.toNat := by
  obtain ⟨hzero, hnone⟩ | ⟨c, hc, hbest, hne, hgreatest⟩ := search_cases hpos rate
  · rw [if_pos hzero] at h
    exact .inl ⟨h.symm, hnone⟩
  · have hne' : (Best.of rate (some c)).rate ≠ 0 := hne
    rw [hbest, if_neg hne'] at h
    exact .inr ⟨c, hc, h.symm, hgreatest⟩

/-- What setting a divided clock does for a request. -/
structure Chosen (parents : List UInt64) (reg : ClkSelRegisters) (clkId : UInt32) (rate : UInt64) : Prop where
  greatest : ∀ r reg', npuSetClk reg clkId rate = (.ok r, reg') → IsGreatest (Reachable parents rate) r.toNat
  refused : (npuSetClk reg clkId rate).1 = .error () ↔ Reachable parents rate = ∅

theorem Chosen.of_cases {parents : List UInt64} (hpos : ∀ c ∈ candidates parents, 0 < c.rate) {rate : UInt64}
    {reg : ClkSelRegisters} (write : Best → ClkSelRegisters) {clkId : UInt32}
    (h : npuSetClk reg clkId rate = if (Best.search parents rate).rate = 0 then (.error (), reg)
      else (.ok (Best.search parents rate).rate, write (Best.search parents rate))) : Chosen parents reg clkId rate := by
  obtain ⟨hresult, hnone⟩ | ⟨c, hc, hresult, hgreatest⟩ := divided_cases hpos rate reg write h.symm
  · refine ⟨fun r reg' hset => ?_, iff_of_true (by rw [hresult]) hnone⟩
    rw [hresult] at hset
    cases hset
  · refine ⟨fun r reg' hset => ?_, iff_of_false (by rw [hresult]; nofun) (Set.nonempty_iff_ne_empty.mp ⟨_, hgreatest.1⟩)⟩
    rw [hresult] at hset
    cases hset
    exact hgreatest

theorem dsu0_roundTrip {reg reg' : ClkSelRegisters} {rate r : UInt64}
    (h : npuSetClk reg clkNpuDsu0 rate = (.ok r, reg')) : RoundTrip reg reg' clkNpuDsu0 r := by
  obtain ⟨herr, -⟩ | ⟨c, hc, hok, -⟩ := divided_cases (fun c hc => (dsu0_holds c hc).1) rate reg
    (fun best => setCon73 reg (dividedWord 0x7 7 2 best)) h
  · cases herr
  · cases hok
    have hholds := (dsu0_holds c hc).2
    exact roundTrip_con73 (congrArg (·, 0) hholds.enabled.symm) (hholds.dividedRate hc)

theorem cm0Rtc_roundTrip {reg reg' : ClkSelRegisters} {rate r : UInt64}
    (h : npuSetClk reg clkNpuCm0Rtc rate = (.ok r, reg')) : RoundTrip reg reg' clkNpuCm0Rtc r := by
  obtain ⟨herr, -⟩ | ⟨c, hc, hok, -⟩ := divided_cases (fun c hc => (cm0Rtc_holds c hc).1) rate reg
    (fun best => setCon74 reg (dividedWord 0x1 12 7 best)) h
  · cases herr
  · cases hok
    have hholds := (cm0Rtc_holds c hc).2
    exact roundTrip_con74 (congrArg (0, ·) hholds.enabled.symm) (hholds.dividedRate hc)

/-- Setting a clock of the NPU is read back and leaves the other clocks alone, and a divided clock gets the largest rate
that does not exceed the request. -/
theorem npu_set_clk_exact (reg : ClkSelRegisters) (clkId : UInt32) (rate : UInt64) :
    (∀ r reg', npuSetClk reg clkId rate = (.ok r, reg') → RoundTrip reg reg' clkId r) ∧
      Chosen dsu0Parents reg clkNpuDsu0 rate ∧ Chosen cm0RtcParents reg clkNpuCm0Rtc rate := by
  refine ⟨fun r reg' h => ?_,
    .of_cases (fun c hc => (dsu0_holds c hc).1) (fun best => setCon73 reg (dividedWord 0x7 7 2 best)) rfl,
    .of_cases (fun c hc => (cm0Rtc_holds c hc).1) (fun best => setCon74 reg (dividedWord 0x1 12 7 best)) rfl⟩
  by_cases hid : clkId ∈ npuClocks
  · simp only [npuClocks, List.mem_cons, List.not_mem_nil, or_false] at hid
    rcases hid with rfl | rfl | rfl | rfl | rfl | rfl
    · simp +decide only [npuSetClk, ↓reduceIte] at h
      split_ifs at h <;> cases h <;> exact roundTrip_con73 (by decide) (by simp +decide [npuGetClk, muxRate, bits])
    · exact dsu0_roundTrip h
    · simp +decide only [npuSetClk, ↓reduceIte] at h
      split_ifs at h <;> cases h <;> exact roundTrip_con74 (by decide) (by simp +decide [npuGetClk, muxRate, bits])
    · simp +decide only [npuSetClk, ↓reduceIte] at h
      split_ifs at h <;> cases h <;> exact roundTrip_con74 (by decide) (by simp +decide [npuGetClk, muxRate, bits])
    · exact cm0Rtc_roundTrip h
    · simp +decide only [npuSetClk, ↓reduceIte] at h
      split_ifs at h <;> cases h <;> exact roundTrip_con74 (by decide) (by simp +decide [npuGetClk, muxRate, bits])
  · simp only [npuClocks, List.mem_cons, List.not_mem_nil, or_false, not_or] at hid
    simp [npuSetClk, hid] at h

end Rknpu.Clock
