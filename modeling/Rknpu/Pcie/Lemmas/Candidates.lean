import Rknpu.Lib.Arith
import Rknpu.Pcie.Lemmas.Tree

/-!
# What a free slot offers

Alignment, and the part of a slot that a request finds. From the left a slot offers its first aligned address, from the
right its last one.
-/

/-! ## Results -/

namespace Except

variable {ε ε' α β : Type}

theorem bind_eq_ok {x : Except ε α} {f : α → Except ε β} {b : β} (h : (x >>= f) = .ok b) :
    ∃ a, x = .ok a ∧ f a = .ok b := by
  cases x with
  | error e => cases h
  | ok a => exact ⟨a, rfl, h⟩

theorem mapError_eq_ok {f : ε → ε'} {x : Except ε α} {a : α} (h : x.mapError f = .ok a) : x = .ok a := by
  cases x with
  | error e => cases h
  | ok b => exact congrArg Except.ok (Except.ok.inj h)

end Except

namespace Rknpu.Pcie

/-! ## Alignment -/

theorem isPowerOfTwo_iff {a : Nat} : isPowerOfTwo a = true ↔ ∃ k, a = 2 ^ k := by
  constructor
  · intro h
    simp only [isPowerOfTwo, Bool.and_eq_true, beq_iff_eq] at h
    exact ⟨a.log2, h.2.symm⟩
  · rintro ⟨k, rfl⟩
    simp [isPowerOfTwo]

variable {address alignment result : Nat}

theorem alignDown_eq (hpow : isPowerOfTwo alignment = true) (halign : alignment < 2 ^ 64) (haddress : address < 2 ^ 64) :
    alignDown address alignment = .ok (address / alignment * alignment) := by
  obtain ⟨k, rfl⟩ := isPowerOfTwo_iff.mp hpow
  have hk : k < 64 := (Nat.pow_lt_pow_iff_right (by decide)).mp halign
  have hsplit : 2 ^ 64 = 2 ^ k * 2 ^ (64 - k) := by rw [← Nat.pow_add, Nat.add_sub_cancel' hk.le]
  have hpos := Nat.two_pow_pos k
  have hmask : 2 ^ 64 - 1 - (2 ^ k - 1) = (2 ^ (64 - k) - 1) * 2 ^ k := by
    rw [Nat.sub_mul, Nat.one_mul, Nat.mul_comm, ← hsplit]
    omega
  rw [alignDown, hpow, hmask]
  exact congrArg Except.ok (Nat.and_high_bits (by rwa [Nat.add_sub_cancel' hk.le]))

/-- The first aligned address that is not lower. -/
theorem alignUp_eq_ok (hpow : isPowerOfTwo alignment = true) (halign : alignment < 2 ^ 64)
    (h : alignUp address alignment = .ok result) :
    alignment ∣ result ∧ address ≤ result ∧ ∀ a, address ≤ a → alignment ∣ a → result ≤ a := by
  obtain ⟨k, hk⟩ := isPowerOfTwo_iff.mp hpow
  have hpos : 0 < alignment := hk ▸ Nat.two_pow_pos k
  rw [alignUp, if_neg hpos.ne'] at h
  unfold checkedAdd at h
  split at h
  · rename_i sum hsum
    obtain ⟨hlt, hsum⟩ := Option.ite_none_right_eq_some.mp hsum
    obtain rfl := Option.some.inj hsum
    rw [alignDown_eq hpow halign hlt] at h
    obtain rfl := Except.ok.inj h
    refine ⟨Nat.dvd_mul_left _ _, ?_, ?_⟩
    · have hdiv := Nat.div_add_mod (address + (alignment - 1)) alignment
      have hmod := Nat.mod_lt (address + (alignment - 1)) hpos
      rw [Nat.mul_comm] at hdiv
      omega
    · rintro a ha ⟨q, rfl⟩
      rw [Nat.mul_comm alignment q]
      refine Nat.mul_le_mul_right _ (Nat.le_of_lt_succ ?_)
      rw [Nat.div_lt_iff_lt_mul hpos]
      rw [Nat.succ_mul, Nat.mul_comm q]
      omega
  · cases h

/-- There is an aligned address if there is one in the address space. -/
theorem alignUp_isOk {a : Nat} (hpow : isPowerOfTwo alignment = true) (halign : alignment < 2 ^ 64)
    (ha : address ≤ a) (hdvd : alignment ∣ a) (hlt : a < 2 ^ 64) : ∃ result, alignUp address alignment = .ok result := by
  obtain ⟨k, hk⟩ := isPowerOfTwo_iff.mp hpow
  have hpos : 0 < alignment := hk ▸ Nat.two_pow_pos k
  have hk64 : k < 64 := (Nat.pow_lt_pow_iff_right (by decide)).mp (hk ▸ halign)
  -- the end of the address space is aligned as well
  have hend : alignment ∣ 2 ^ 64 := hk ▸ pow_dvd_pow 2 hk64.le
  have hroom : alignment ≤ 2 ^ 64 - a := Nat.le_of_dvd (by omega) (Nat.dvd_sub hend hdvd)
  have hsum : address + (alignment - 1) < 2 ^ 64 := by omega
  rw [alignUp, if_neg hpos.ne', checkedAdd, if_pos hsum]
  exact ⟨_, alignDown_eq hpow halign hsum⟩

/-! ## Requests -/

/-- A request as `Constraint::new` makes it, of words. -/
structure Constraint.Valid (c : Constraint) : Prop where
  size_pos : 0 < c.size
  pow : isPowerOfTwo c.align = true
  align_lt : c.align < 2 ^ 64
  exact : ∀ start, c.policy = .exactMatch start → c.align ∣ start

theorem Constraint.new_eq_ok {size align : Nat} {policy : AllocPolicy} {c : Constraint} (halign : align < 2 ^ 64)
    (h : Constraint.new size align policy = .ok c) : c.Valid ∧ c = ⟨size, align, policy⟩ := by
  unfold Constraint.new at h
  split at h
  · cases h
  · rename_i hsize
    split at h
    · cases h
    · rename_i hpow
      simp only [Bool.or_eq_true, Bool.not_eq_true', beq_iff_eq, not_or, Bool.not_eq_false] at hpow
      have hpos := Nat.pos_of_ne_zero hsize
      split at h
      · rename_i start
        split at h
        · cases h
        · rename_i hdvd
          cases h
          refine ⟨⟨hpos, hpow.1, halign, ?_⟩, rfl⟩
          rintro _ ⟨⟩
          exact Nat.dvd_of_mod_eq_zero (not_not.mp hdvd)
      all_goals
        cases h
        exact ⟨⟨hpos, hpow.1, halign, by simp⟩, rfl⟩

variable {slot : Slot} {c : Constraint} {range : RangeInclusive}

/-- The address is one at which the slot can serve the request. -/
structure Slot.Fits (slot : Slot) (c : Constraint) (a : Nat) : Prop where
  free : slot.state = .free
  start_le : slot.key.start ≤ a
  aligned : c.align ∣ a
  le_last : a + c.size ≤ slot.key.last + 1

/-- What every candidate has passed: the slot is free, and the rest of it from the candidate on is long enough. -/
theorem checkConstraint_eq_ok (h : slot.checkConstraint c = .ok range) :
    slot.state = .free ∧ slot.rangeStart c = .ok range.start ∧ range.last = slot.key.last ∧ c.size ≤ range.len := by
  unfold Slot.checkConstraint at h
  split at h
  · cases h
  · rename_i hcond
    rw [not_or, not_not] at hcond
    obtain ⟨start, hstart, hrest⟩ := Except.bind_eq_ok h
    obtain ⟨key, hnew, hcheck⟩ := Except.bind_eq_ok hrest
    obtain ⟨hkey, hlast⟩ := RangeInclusive.new_eq_ok (Except.mapError_eq_ok hnew)
    split at hcheck
    · rename_i hsize
      cases hcheck
      exact ⟨hcond.1, hkey ▸ hstart, hlast, hsize⟩
    · cases hcheck

/-- A free slot with an aligned start from which the request fits is a candidate. -/
theorem checkConstraint_isOk {start : Nat} (hstart : slot.rangeStart c = .ok start) (hfits : slot.Fits c start)
    (hc : c.Valid) : ∃ range, slot.checkConstraint c = .ok range := by
  have hle := hfits.start_le
  have hroom := hfits.le_last
  have hpos := hc.size_pos
  have hkey := slot.key.le
  have hall := slot.key.notAll
  have hstart_le : start ≤ slot.key.last := by omega
  have hnotAll : ¬(start = 0 ∧ slot.key.last = 2 ^ 64 - 1) := by omega
  have hnew := RangeInclusive.new_eq hstart_le slot.key.lt hnotAll
  refine ⟨⟨start, slot.key.last, hstart_le, slot.key.lt, hnotAll⟩, ?_⟩
  unfold Slot.checkConstraint
  rw [if_neg (by simp only [hfits.free, ne_eq, not_true_eq_false, false_or, RangeInclusive.len]; omega), hstart]
  change ((RangeInclusive.new start slot.key.last).mapError Failure.error >>= fun key =>
    if c.size ≤ key.len then Except.ok key else .error (.error .resourceNotAvailable)) = _
  rw [hnew]
  exact if_pos (by simp only [RangeInclusive.len]; omega)

theorem checkConstraint_first (hc : c.Valid) (hpolicy : c.policy = .firstMatch)
    (h : slot.checkConstraint c = .ok range) : slot.Fits c range.start ∧ ∀ a, slot.Fits c a → range.start ≤ a := by
  obtain ⟨hfree, hstart, hlast, hsize⟩ := checkConstraint_eq_ok h
  rw [Slot.rangeStart, hpolicy] at hstart
  obtain ⟨hdvd, hle, hleast⟩ := alignUp_eq_ok hc.pow hc.align_lt (Except.mapError_eq_ok hstart)
  have hrange := range.le
  simp only [RangeInclusive.len] at hsize
  exact ⟨⟨hfree, hle, hdvd, by omega⟩, fun a ha => hleast a ha.start_le ha.aligned⟩

theorem lastAddress_eq_ok (hc : c.Valid) {key : RangeInclusive} {start : Nat} (h : key.lastAddress c = .ok start) :
    key.start ≤ start ∧ c.align ∣ start ∧ start + c.size ≤ key.last + 1 ∧
      ∀ a, c.align ∣ a → a + c.size ≤ key.last + 1 → a ≤ start := by
  obtain ⟨k, hk⟩ := isPowerOfTwo_iff.mp hc.pow
  have hpos : 0 < c.align := hk ▸ Nat.two_pow_pos k
  have hsize := hc.size_pos
  have hlt := key.lt
  unfold RangeInclusive.lastAddress at h
  split at h
  · cases h
  · rename_i address hsub
    split at h
    · cases h
    · rename_i candidate hadd
      obtain ⟨hle, hsub⟩ := Option.ite_none_right_eq_some.mp hsub
      obtain ⟨_, hadd⟩ := Option.ite_none_right_eq_some.mp hadd
      simp only [Option.some.injEq] at hsub hadd
      -- the last address that leaves room for the request
      have hcandidate : candidate + c.size = key.last + 1 := by omega
      rw [alignDown_eq hc.pow hc.align_lt (by omega)] at h
      obtain ⟨aligned, haligned, h⟩ := Except.bind_eq_ok h
      obtain rfl := Except.ok.inj haligned
      split at h
      · cases h
      · rename_i hge
        cases h
        have hfloor := Nat.div_mul_le_self candidate c.align
        refine ⟨by omega, Nat.dvd_mul_left _ _, by omega, ?_⟩
        rintro a ⟨q, rfl⟩ hroom
        rw [Nat.mul_comm c.align q]
        refine Nat.mul_le_mul_right _ ((Nat.le_div_iff_mul_le hpos).mpr ?_)
        rw [Nat.mul_comm]
        omega

theorem checkConstraint_last (hc : c.Valid) (hpolicy : c.policy = .lastMatch)
    (h : slot.checkConstraint c = .ok range) : slot.Fits c range.start ∧ ∀ a, slot.Fits c a → a ≤ range.start := by
  obtain ⟨hfree, hstart, _, _⟩ := checkConstraint_eq_ok h
  rw [Slot.rangeStart, hpolicy] at hstart
  obtain ⟨hle, hdvd, hroom, hgreatest⟩ := lastAddress_eq_ok hc (Except.mapError_eq_ok hstart)
  exact ⟨⟨hfree, hle, hdvd, hroom⟩, fun a ha => hgreatest a ha.aligned ha.le_last⟩

/-- From the left, every slot that can serve the request is a candidate. -/
theorem exists_checkConstraint_first (hc : c.Valid) (hpolicy : c.policy = .firstMatch) {a : Nat} (hfits : slot.Fits c a) :
    ∃ range, slot.checkConstraint c = .ok range := by
  have hroom := hfits.le_last
  have hpos := hc.size_pos
  have hlt := slot.key.lt
  obtain ⟨start, hup⟩ := alignUp_isOk hc.pow hc.align_lt hfits.start_le hfits.aligned (by omega)
  obtain ⟨hdvd, hle, hleast⟩ := alignUp_eq_ok hc.pow hc.align_lt hup
  have hlea := hleast a hfits.start_le hfits.aligned
  have hstart : slot.rangeStart c = .ok start := by
    rw [Slot.rangeStart, hpolicy]
    simp only [hup]
    rfl
  exact checkConstraint_isOk hstart ⟨hfits.free, hle, hdvd, by omega⟩ hc

/-! ## The candidate -/

variable {t : InnerNode}

theorem InnerNode.offer_eq_some {found : Slot × RangeInclusive} (h : offer c slot = some found) :
    found.1 = slot ∧ slot.checkConstraint c = .ok found.2 := by
  unfold offer at h
  cases hcheck : slot.checkConstraint c with
  | error e => simp [hcheck, Except.toOption] at h
  | ok range =>
      simp only [hcheck, Except.toOption, Option.map_some, Option.some.injEq] at h
      subst h
      exact ⟨rfl, rfl⟩

theorem exactMatch_eq_ok {start : Nat} (hord : Ordered t.toList) (h : t.exactMatch c start = .ok (slot, range)) :
    slot ∈ t.toList ∧ range.start = start ∧ slot.key.start ≤ start ∧ start + c.size ≤ slot.key.last + 1 := by
  obtain ⟨next, _, h⟩ := Except.bind_eq_ok h
  obtain ⟨near, _, h⟩ := Except.bind_eq_ok h
  obtain ⟨found, hfound, h⟩ := Except.bind_eq_ok h
  obtain ⟨less, hless, h⟩ := Except.bind_eq_ok h
  obtain ⟨last, hlast, h⟩ := Except.bind_eq_ok h
  obtain ⟨key, hkey, h⟩ := Except.bind_eq_ok h
  split at h
  · rename_i hcontains
    cases h
    obtain ⟨hstart, hend⟩ := RangeInclusive.new_eq_ok hkey
    obtain ⟨hle, hle'⟩ := RangeInclusive.contains_iff.mp hcontains
    simp only [checkedAdd, checkedSub] at hless hlast
    split at hless <;> simp at hless
    split at hlast <;> simp at hlast
    cases hsearch : t.searchSuperset near with
    | none => simp [hsearch] at hfound
    | some found =>
        simp only [hsearch, Option.elim_some, Except.ok.injEq] at hfound
        subst hfound
        exact ⟨((InnerNode.searchSuperset_eq_some_iff hord).mp hsearch).1, hstart, by omega, by omega⟩
  · cases h

/-- The slot may be in any state. -/
theorem exactMatch_isOk {start : Nat} (hord : Ordered t.toList) (hmem : slot ∈ t.toList) (hsize : 0 < c.size)
    (hle : slot.key.start ≤ start) (hnext : start < slot.key.last) (hroom : start + c.size ≤ slot.key.last + 1) :
    ∃ range, t.exactMatch c start = .ok (slot, range) := by
  have hlt := slot.key.lt
  have hall := slot.key.notAll
  have hadd : checkedAdd start 1 = some (start + 1) := if_pos (by omega)
  have hsub : checkedSub c.size 1 = some (c.size - 1) := if_pos (by omega)
  have hlast : checkedAdd start (c.size - 1) = some (start + (c.size - 1)) := if_pos (by omega)
  obtain ⟨near, hnear, hnearStart, hnearLast⟩ : ∃ near, RangeInclusive.new start (start + 1) = .ok near ∧
      near.start = start ∧ near.last = start + 1 := ⟨_, RangeInclusive.new_eq (by omega) (by omega) (by omega), rfl, rfl⟩
  obtain ⟨range, hrange, hrangeStart, hrangeLast⟩ : ∃ range, RangeInclusive.new start (start + (c.size - 1)) = .ok range ∧
      range.start = start ∧ range.last = start + (c.size - 1) :=
    ⟨_, RangeInclusive.new_eq (by omega) (by omega) (by omega), rfl, rfl⟩
  have hsearch : t.searchSuperset near = some slot :=
    (InnerNode.searchSuperset_eq_some_iff hord).mpr ⟨hmem, RangeInclusive.contains_iff.mpr (by omega)⟩
  have hcontains : slot.key.contains range = true := RangeInclusive.contains_iff.mpr (by omega)
  refine ⟨range, ?_⟩
  simp only [InnerNode.exactMatch, hadd, Option.elim_some, hnear, hsearch, hsub, hlast, hrange, hcontains, if_true, bind,
    Except.bind]

/-- The candidate is one of the slots, and the request fits at an aligned address in it. Only an exact match may find a
slot that is not free. -/
theorem findCandidate_eq_ok (hord : Ordered t.toList) (hc : c.Valid) (h : t.findCandidate c = .ok (slot, range)) :
    slot ∈ t.toList ∧ slot.key.start ≤ range.start ∧ c.align ∣ range.start ∧ range.start + c.size ≤ slot.key.last + 1 ∧
      (slot.state = .free ∨ ∃ start, c.policy = .exactMatch start) := by
  unfold InnerNode.findCandidate at h
  cases hpolicy : c.policy with
  | firstMatch =>
      simp only [hpolicy, InnerNode.firstMatch_eq] at h
      cases hfound : t.toList.findSome? (InnerNode.offer c) with
      | none => simp [hfound] at h
      | some found =>
          simp only [hfound, Option.elim_some, Except.ok.injEq] at h
          subst h
          obtain ⟨a, ha, hoffer⟩ := List.exists_of_findSome?_eq_some hfound
          obtain ⟨rfl, hcheck⟩ := InnerNode.offer_eq_some hoffer
          have hfits := (checkConstraint_first hc hpolicy hcheck).1
          exact ⟨ha, hfits.start_le, hfits.aligned, hfits.le_last, .inl hfits.free⟩
  | lastMatch =>
      simp only [hpolicy, InnerNode.lastMatch_eq] at h
      cases hfound : t.toList.reverse.findSome? (InnerNode.offer c) with
      | none => simp [hfound] at h
      | some found =>
          simp only [hfound, Option.elim_some, Except.ok.injEq] at h
          subst h
          obtain ⟨a, ha, hoffer⟩ := List.exists_of_findSome?_eq_some hfound
          obtain ⟨rfl, hcheck⟩ := InnerNode.offer_eq_some hoffer
          have hfits := (checkConstraint_last hc hpolicy hcheck).1
          exact ⟨List.mem_reverse.mp ha, hfits.start_le, hfits.aligned, hfits.le_last, .inl hfits.free⟩
  | exactMatch start =>
      simp only [hpolicy] at h
      obtain ⟨hmem, hstart, hle, hroom⟩ := exactMatch_eq_ok hord h
      rw [hstart]
      exact ⟨hmem, hle, hc.exact start hpolicy, hroom, .inr ⟨start, rfl⟩⟩

/-! ## First fit -/

theorem not_fits_of_offer_eq_none (hc : c.Valid) (hpolicy : c.policy = .firstMatch) (h : InnerNode.offer c slot = none)
    (a : Nat) : ¬slot.Fits c a := by
  intro hfits
  obtain ⟨range, hcheck⟩ := exists_checkConstraint_first hc hpolicy hfits
  simp [InnerNode.offer, hcheck, Except.toOption] at h

theorem firstMatch_eq_error {e : Error} (hc : c.Valid) (hpolicy : c.policy = .firstMatch)
    (h : t.findCandidate c = .error e) : e = .resourceNotAvailable ∧ ∀ slot ∈ t.toList, ∀ a, ¬slot.Fits c a := by
  simp only [InnerNode.findCandidate, hpolicy, InnerNode.firstMatch_eq] at h
  cases hfound : t.toList.findSome? (InnerNode.offer c) with
  | some found => simp [hfound] at h
  | none =>
      simp only [hfound, Option.elim_none, Except.error.injEq] at h
      exact ⟨h.symm, fun slot hmem => not_fits_of_offer_eq_none hc hpolicy (List.findSome?_eq_none_iff.mp hfound slot hmem)⟩

/-- No slot can serve the request at a lower address. -/
theorem firstMatch_lowest (hord : Ordered t.toList) (hc : c.Valid) (hpolicy : c.policy = .firstMatch)
    (h : t.findCandidate c = .ok (slot, range)) : ∀ slot' ∈ t.toList, ∀ a, slot'.Fits c a → range.start ≤ a := by
  simp only [InnerNode.findCandidate, hpolicy, InnerNode.firstMatch_eq] at h
  cases hfound : t.toList.findSome? (InnerNode.offer c) with
  | none => simp [hfound] at h
  | some found =>
      simp only [hfound, Option.elim_some, Except.ok.injEq] at h
      subst h
      obtain ⟨xs, a, ys, hlist, hoffer, hbefore⟩ := List.findSome?_eq_some_iff.mp hfound
      obtain ⟨rfl, hcheck⟩ := InnerNode.offer_eq_some hoffer
      obtain ⟨hfits, hleast⟩ := checkConstraint_first hc hpolicy hcheck
      rw [hlist] at hord ⊢
      intro slot' hmem a ha
      rcases List.mem_append.mp hmem with hx | hmem
      · exact absurd ha (not_fits_of_offer_eq_none hc hpolicy (hbefore slot' hx) a)
      · rcases List.mem_cons.mp hmem with rfl | hy
        · exact hleast a ha
        · have hafter := (List.pairwise_cons.mp (List.pairwise_append.mp hord).2.1).1 slot' hy
          have hlow := ha.start_le
          have hroom : range.start + c.size ≤ slot.key.last + 1 := hfits.le_last
          simp only [Slot.Before] at hafter
          have hpos := hc.size_pos
          omega

end Rknpu.Pcie
