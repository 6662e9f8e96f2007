import Rknpu.Scmi.Protocol

/-!
# Transfer tokens

`TokenTable::alloc` looks for a token that is not used and does not mark the one it returns, so the table stays empty
and the token of a transfer is its number. This goes well for the first 1024 transfers.
-/

namespace Rknpu.Scmi

/-! ## Headers -/

theorem fieldPrep_eq_bits {mask : UInt32} (value place shift : UInt32) (hshift : trailingZeros mask = shift)
    (hplace : mask >>> shift = place) (hmask : UInt32.region place shift = mask) :
    fieldPrep mask value = UInt32.Field.bits ⟨value, place, shift⟩ := by
  have hbits := UInt32.bits_and_place ⟨value, place, shift⟩
  rw [UInt32.Field.place, hmask] at hbits
  rw [fieldPrep, hshift, hplace]
  exact hbits

/-- The fields of a header, the token third. -/
def MsgHeader.fields (h : MsgHeader) : List UInt32.Field :=
  [⟨h.id.toUInt32, 0xFF, 0⟩, ⟨h.type.toUInt32, 0x3, 8⟩, ⟨h.seq.toUInt32, 0x3FF, 18⟩, ⟨h.protocolId.toUInt32, 0xFF, 10⟩]

theorem MsgHeader.pack_eq (h : MsgHeader) : h.pack = UInt32.pack h.fields := by
  rw [MsgHeader.pack, fieldPrep_eq_bits h.id.toUInt32 0xFF 0 (by decide) (by decide) (by decide),
    fieldPrep_eq_bits h.type.toUInt32 0x3 8 (by decide) (by decide) (by decide),
    fieldPrep_eq_bits h.seq.toUInt32 0x3FF 18 (by decide) (by decide) (by decide),
    fieldPrep_eq_bits h.protocolId.toUInt32 0xFF 10 (by decide) (by decide) (by decide), UInt32.or_assoc, UInt32.or_assoc]
  simp only [MsgHeader.fields, UInt32.pack, List.foldr_cons, List.foldr_nil, UInt32.or_zero]

theorem toNat_packedToken (w : UInt32) : (packedToken w).toNat = w.field 18 10 := by
  rw [packedToken, show trailingZeros msgTokenIdMask = 18 by decide, UInt32.shiftRight_and,
    show msgTokenIdMask >>> 18 = 0x3FF by decide, UInt32.toNat_and, UInt32.toNat_shiftRight]
  change w.toNat >>> 18 &&& (2 ^ 10 - 1) = _
  rw [Nat.and_two_pow_sub_one_eq_mod, Nat.shiftRight_eq_div_pow]
  rfl

/-- A token below the limit survives packing, whatever else the header says. -/
theorem MsgHeader.packedToken_pack (h : MsgHeader) (hseq : h.seq.toNat < msgTokenMax) :
    packedToken h.pack = h.seq.toUInt32 := by
  have hsep : UInt32.Separate (h.fields.map UInt32.Field.place) := by
    change UInt32.Separate [UInt32.region 0xFF 0, UInt32.region 0x3 8, UInt32.region 0x3FF 18, UInt32.region 0xFF 10]
    decide
  have hmem : ⟨h.seq.toUInt32, 0x3FF, 18⟩ ∈ h.fields := by simp [MsgHeader.fields]
  have hfield := UInt32.field_pack hsep hmem (show _ = 2 ^ 10 - 1 from rfl) (show 18 + 10 ≤ 32 by decide)
  rw [← UInt32.toNat_inj, toNat_packedToken, h.pack_eq]
  refine hfield.trans (Nat.mod_eq_of_lt ?_)
  exact hseq

/-! ## The table stays empty -/

namespace TokenTable

theorem isTokenNotUsed_new (token : UInt16) :
    new.isTokenNotUsed token = if token.toNat < msgTokenMax then some true else none := by
  have hword : (token / UInt16.ofNat tokensPerWord).toNat = token.toNat / 32 := UInt16.toNat_div ..
  have hmax : msgTokenMax = 1024 := by decide
  have hwords : tokenTableWords = 32 := by decide
  rw [isTokenNotUsed, hword, hmax, new, Vector.getElem?_replicate, hwords]
  split
  · rw [if_pos (by omega), Option.map_some, UInt32.zero_and]
    rfl
  · rw [if_neg (by omega)]
    rfl

theorem alloc_new (base : Int32) :
    new.alloc base = if base.toUInt32.toUInt16.toNat < msgTokenMax then some (some base.toUInt32.toUInt16) else none := by
  rw [alloc, isTokenNotUsed_new]
  split <;> rfl

theorem release_new (token : UInt16) : new.release token = new := by
  by_cases h : msgTokenMax ≤ token.toNat
  · rw [release, dif_pos h]
  · rw [release, dif_neg h]
    refine congrArg TokenTable.mk (Vector.ext fun i hi => ?_)
    simp [new]

end TokenTable

/-! ## Runs -/

/-- The sequence drops only live transfers, and fewer than 1024 are alive at any time; `alive` are at its start. -/
def Bounded (alive : Nat) : List XferAct → Prop
  | [] => True
  | .new _ _ :: acts => alive + 1 < msgTokenMax ∧ Bounded (alive + 1) acts
  | .drop i :: acts => i < alive ∧ Bounded (alive - 1) acts

instance : (alive : Nat) → (acts : List XferAct) → Decidable (Bounded alive acts)
  | _, [] => inferInstanceAs (Decidable True)
  | alive, .new _ _ :: acts =>
      have := instDecidableBounded (alive + 1) acts
      inferInstanceAs (Decidable (_ ∧ _))
  | alive, .drop _ :: acts =>
      have := instDecidableBounded (alive - 1) acts
      inferInstanceAs (Decidable (_ ∧ _))

/-- The transfers that the sequence makes. -/
def created : List XferAct → Nat
  | [] => 0
  | .new _ _ :: acts => created acts + 1
  | .drop _ :: acts => created acts

/-- What the live transfers have to fulfil. -/
structure Transfers.Sound (t : Transfers) : Prop where
  below : ∀ x ∈ t.live, x.token.toNat < msgTokenMax
  packed : ∀ x ∈ t.live, ∀ h : MsgHeader, h.seq = x.token → packedToken h.pack = x.token.toUInt32
  distinct : (t.live.map Xfer.token).Nodup

theorem Bounded.of_append {alive : Nat} {before after : List XferAct} (h : Bounded alive (before ++ after)) :
    Bounded alive before := by
  induction before generalizing alive with
  | nil => trivial
  | cons a before ih =>
      cases a with
      | new => exact ⟨h.1, ih h.2⟩
      | drop => exact ⟨h.1, ih h.2⟩

theorem created_append (before after : List XferAct) : created (before ++ after) = created before + created after := by
  induction before with
  | nil => exact (Nat.zero_add _).symm
  | cons a before ih =>
      cases a with
      | new => simp only [List.cons_append, created, ih]; omega
      | drop => simp only [List.cons_append, created, ih]

/-! ## Numbered transfers -/

/-- The state after `n` transfers: the table is empty, and the tokens are the numbers of the transfers. -/
structure Transfers.Numbered (t : Transfers) (n : Nat) : Prop where
  table : t.globals.tokenAllocator = .new
  counter : t.globals.transferIdCounter = Int32.ofNat n
  le : n ≤ msgTokenMax
  numbers : ∀ x ∈ t.live, x.token.toNat < n
  distinct : (t.live.map Xfer.token).Nodup

namespace Transfers.Numbered

variable {t : Transfers} {n : Nat}

theorem init : transfers.init.Numbered 0 where
  table := rfl
  counter := rfl
  le := Nat.zero_le _
  numbers := nofun
  distinct := List.nodup_nil

theorem sound (h : t.Numbered n) : t.Sound where
  below := fun x hx => lt_of_lt_of_le (h.numbers x hx) h.le
  packed := fun x hx hdr hseq => by
    rw [← hseq]
    refine hdr.packedToken_pack (lt_of_lt_of_le ?_ h.le)
    rw [hseq]
    exact h.numbers x hx
  distinct := h.distinct

/-- The number of a transfer as a token. -/
theorem toNat_base (hn : n ≤ msgTokenMax) : (Int32.ofNat n).toUInt32.toUInt16.toNat = n := by
  have hmax : msgTokenMax = 1024 := by decide
  rw [UInt32.toNat_toUInt16]
  change n % 2 ^ 32 % 2 ^ 16 = n
  omega

theorem new (h : t.Numbered n) (hn : n < msgTokenMax) (msgId : UInt8) (rxSize : Nat) :
    ∃ t', t.step (.new msgId rxSize) = some t' ∧ t'.Numbered (n + 1) ∧ t'.live.length = t.live.length + 1 := by
  have htoken := toNat_base h.le
  have halloc : t.globals.tokenAllocator.alloc t.globals.transferIdCounter =
      some (some (Int32.ofNat n).toUInt32.toUInt16) := by
    rw [h.table, h.counter, TokenTable.alloc_new, if_pos (by rwa [htoken])]
  obtain ⟨x, hnew, hx⟩ : ∃ x, Xfer.new t.globals msgId rxSize =
      some (x, { t.globals with transferIdCounter := t.globals.transferIdCounter + 1 }) ∧
      x.token = (Int32.ofNat n).toUInt32.toUInt16 := by
    refine ⟨_, by rw [Xfer.new, halloc], ?_⟩
    rfl
  have hstep : t.step (.new msgId rxSize) =
      some ⟨{ t.globals with transferIdCounter := t.globals.transferIdCounter + 1 }, t.live ++ [x]⟩ := by
    rw [Transfers.step, hnew]
    rfl
  refine ⟨_, hstep, ⟨h.table, ?_, hn, ?_, ?_⟩, List.length_append⟩
  · rw [Int32.ofNat_add, ← h.counter]
    rfl
  · intro y hy
    rcases List.mem_append.mp hy with hy | hy
    · exact Nat.lt_succ_of_lt (h.numbers y hy)
    · rw [List.mem_singleton.mp hy, hx, htoken]
      exact Nat.lt_succ_self n
  · rw [List.map_append, List.map_singleton, hx, List.nodup_append]
    refine ⟨h.distinct, List.nodup_singleton _, ?_⟩
    rintro token hmem token' hmem' rfl
    obtain ⟨y, hy, rfl⟩ := List.mem_map.mp hmem
    have hlt := h.numbers y hy
    rw [List.mem_singleton.mp hmem', htoken] at hlt
    exact lt_irrefl n hlt

/-- The table has 32 words, so the token 1024 is looked up past its end. -/
theorem new_eq_none (h : t.Numbered msgTokenMax) (msgId : UInt8) (rxSize : Nat) : t.step (.new msgId rxSize) = none := by
  have halloc : t.globals.tokenAllocator.alloc t.globals.transferIdCounter = none := by
    rw [h.table, h.counter, TokenTable.alloc_new, if_neg]
    rw [toNat_base le_rfl]
    exact lt_irrefl _
  rw [Transfers.step, Xfer.new, halloc]
  rfl

theorem drop (h : t.Numbered n) {i : Nat} (hi : i < t.live.length) :
    ∃ t', t.step (.drop i) = some t' ∧ t'.Numbered n ∧ t'.live.length = t.live.length - 1 := by
  have hsub := List.eraseIdx_sublist t.live i
  have hstep : t.step (.drop i) = some ⟨Xfer.drop t.globals t.live[i], t.live.eraseIdx i⟩ := by
    rw [Transfers.step, List.getElem?_eq_getElem hi]
    rfl
  refine ⟨_, hstep, ⟨?_, h.counter, h.le, fun x hx => h.numbers x (hsub.subset hx), h.distinct.sublist (hsub.map _)⟩,
    List.length_eraseIdx_of_lt hi⟩
  change t.globals.tokenAllocator.release _ = _
  rw [h.table, TokenTable.release_new]

theorem runFrom {acts : List XferAct} (h : t.Numbered n) (hb : Bounded t.live.length acts)
    (hfit : n + created acts ≤ msgTokenMax) :
    ∃ t', transfers.runFrom t acts = some t' ∧ t'.Numbered (n + created acts) := by
  induction acts generalizing t n with
  | nil => exact ⟨t, rfl, h⟩
  | cons a acts ih =>
      cases a with
      | new msgId rxSize =>
          rw [created, ← Nat.add_assoc, Nat.add_right_comm] at hfit ⊢
          obtain ⟨t₁, hstep, h₁, hlive⟩ := h.new (by omega) msgId rxSize
          obtain ⟨t', hrun, h'⟩ := ih h₁ (hlive ▸ hb.2) hfit
          exact ⟨t', Option.bind_eq_some_iff.mpr ⟨t₁, hstep, hrun⟩, h'⟩
      | drop i =>
          obtain ⟨t₁, hstep, h₁, hlive⟩ := h.drop hb.1
          obtain ⟨t', hrun, h'⟩ := ih h₁ (hlive ▸ hb.2) hfit
          exact ⟨t', Option.bind_eq_some_iff.mpr ⟨t₁, hstep, hrun⟩, h'⟩

/-- After 1024 transfers the next one panics, however many of them are dropped. -/
theorem runFrom_eq_none {acts : List XferAct} (h : t.Numbered n) (hb : Bounded t.live.length acts)
    (hfull : msgTokenMax < n + created acts) : transfers.runFrom t acts = none := by
  induction acts generalizing t n with
  | nil => exact absurd h.le (Nat.not_le.mpr hfull)
  | cons a acts ih =>
      cases a with
      | new msgId rxSize =>
          rcases h.le.eq_or_lt with rfl | hn
          · exact Option.bind_eq_none_iff.mpr fun t₁ hstep => nomatch (h.new_eq_none msgId rxSize).symm.trans hstep
          · obtain ⟨t₁, hstep, h₁, hlive⟩ := h.new hn msgId rxSize
            rw [created, ← Nat.add_assoc, Nat.add_right_comm] at hfull
            refine Option.bind_eq_none_iff.mpr fun t₂ hstep₂ => ?_
            cases hstep.symm.trans hstep₂
            exact ih h₁ (hlive ▸ hb.2) hfull
      | drop i =>
          obtain ⟨t₁, hstep, h₁, hlive⟩ := h.drop hb.1
          refine Option.bind_eq_none_iff.mpr fun t₂ hstep₂ => ?_
          cases hstep.symm.trans hstep₂
          exact ih h₁ (hlive ▸ hb.2) hfull

end Transfers.Numbered

/-- A sequence of transfers and drops with fewer than 1024 transfers alive at any time goes through, with distinct
tokens below 1024 that survive packing, exactly when it makes at most 1024 transfers. -/
theorem xfer_tokens_sound_iff {acts : List XferAct} (h : Bounded 0 acts) :
    (∀ before after, acts = before ++ after → ∃ t, transfers.run before = some t ∧ t.Sound) ↔
      created acts ≤ msgTokenMax := by
  constructor
  · intro hall
    obtain ⟨t, hrun, _⟩ := hall acts [] (List.append_nil _).symm
    by_contra hfull
    have hnone : transfers.run acts = none := Transfers.Numbered.init.runFrom_eq_none h (by omega)
    cases hnone.symm.trans hrun
  · rintro hfit before after rfl
    rw [created_append] at hfit
    obtain ⟨t, hrun, hnumbered⟩ := Transfers.Numbered.init.runFrom h.of_append (by omega)
    exact ⟨t, hrun, hnumbered.sound⟩

/-- Transfers one after the other, each dropped before the next. -/
def oneByOne (n : Nat) : List XferAct := (List.replicate n [.new 0 4, .drop 0]).flatten

theorem oneByOne_succ (n : Nat) : oneByOne (n + 1) = .new 0 4 :: .drop 0 :: oneByOne n := by
  rw [oneByOne, List.replicate_succ, List.flatten_cons]
  rfl

theorem bounded_oneByOne (n : Nat) : Bounded 0 (oneByOne n) := by
  induction n with
  | zero => trivial
  | succ n ih =>
      rw [oneByOne_succ]
      exact ⟨by decide, Nat.one_pos, ih⟩

theorem created_oneByOne (n : Nat) : created (oneByOne n) = n := by
  induction n with
  | zero => rfl
  | succ n ih => rw [oneByOne_succ, created, created, ih]

theorem xfer_tokens_sound_two : Bounded 0 (oneByOne 2) ∧ created (oneByOne 2) ≤ msgTokenMax ∧
    ∃ t, transfers.run (oneByOne 2) = some t ∧ t.Sound := by
  have hbounded : Bounded 0 (oneByOne 2) := by decide
  have hfit : created (oneByOne 2) ≤ msgTokenMax := by decide
  exact ⟨hbounded, hfit, (xfer_tokens_sound_iff hbounded).mpr hfit _ [] (List.append_nil _).symm⟩

/-- The 1025th transfer panics although no other one is alive. -/
theorem xfer_new_panics : Bounded 0 (oneByOne 1025) ∧ created (oneByOne 1025) ≤ 2 ^ 31 ∧
    transfers.run (oneByOne 1025) = none := by
  have hcreated := created_oneByOne 1025
  refine ⟨bounded_oneByOne 1025, by omega, Transfers.Numbered.init.runFrom_eq_none (bounded_oneByOne 1025) ?_⟩
  rw [hcreated]
  decide

end Rknpu.Scmi
