import Rknpu.Emmc.Lemmas.Keeps

/-!
# The capacity of a card

`init_card` takes the capacity from `SEC_COUNT` if that gives more than 2 GiB, or if a card of high capacity has
completed its partitioning, and from the CSD otherwise.
-/

namespace Rknpu.Emmc

open Prog

/-! ## Content of a card -/

structure CardContent where
  ocr : UInt32
  csd : Vector UInt32 4
  extCsd : Block

def CardContent.sectorAddressed (content : CardContent) : Bool := content.ocr &&& ocrHcs = ocrHcs

/-- The bytes that the driver itself switches. -/
def switched : List (Fin 512) := [extCsdEraseGroupDef, extCsdBusWidth, extCsdHsTiming]

/-- A card with this content answers the three reads with it. It may fail at any command, and nothing is assumed of the
controller. -/
def CardContent.Answers (content : CardContent) : ∀ call : HostCall, call.Answer → Prop
  | .sendCommand cmd, .ok transfer =>
      (cmd.opcode = Opcode.mmcSendOpCond → transfer.response.asR3 &&& ocrBusy ≠ 0 →
        transfer.response.asR3 = content.ocr) ∧
      (cmd.opcode = Opcode.mmcSendCsd → transfer.response.asR2 = content.csd) ∧
      (cmd.opcode = Opcode.mmcSendExtCsd → ∀ i ∉ switched, transfer.data i = content.extCsd i)
  | _, _ => True

/-- `SEC_COUNT` gives the capacity. -/
def CardContent.ByExtCsd (content : CardContent) : Prop :=
  csdVersion content.csd = 4 ∧
    (content.sectorAddressed ∧ partCompleted content.extCsd ∨
      content.extCsd extCsdRev ≥ 2 ∧ extCsdCapacity content.extCsd >>> 20 > 2 * 1024)

instance (content : CardContent) : Decidable content.ByExtCsd := inferInstanceAs (Decidable (_ ∧ _))

/-- What `init_card` records. -/
def CardContent.capacity (content : CardContent) : UInt64 :=
  if content.ByExtCsd then extCsdCapacity content.extCsd else csdCapacity content.csd content.sectorAddressed

/-! ## Steps -/

section

variable {content : CardContent} {host : EMmcHost} {cap : UInt64} {len : UInt32}

def EMmcHost.Sized (host : EMmcHost) (cap : UInt64) (len : UInt32) : Prop :=
  host.card.map EMmcCard.size = some (cap, len)

theorem Keeps.sized {α : Type} {m : HostM α} (hm : Keeps content.Answers m) (h : host.Sized cap len) :
    Wp content.Answers (m.run host) (fun _ r => r.2.Sized cap len) (· ≠ .panic .divideByZero) :=
  (hm host).mono (fun _ _ hr => hr.trans h) fun _ => id

theorem wp_modifyCard_sized {f : EMmcCard → EMmcCard} {cap' : UInt64} (h : host.Sized cap len)
    (hf : ∀ card : EMmcCard, card.size = (cap, len) → (f card).size = (cap', len)) :
    Wp content.Answers ((modifyCard f).run host) (fun _ r => r.2.Sized cap' len) (· ≠ .panic .divideByZero) := by
  rw [wp_modifyCard]
  refine ⟨fun card hcard => ?_, fun _ => nofun⟩
  rw [EMmcHost.Sized, hcard, Option.map_some, Option.some.injEq] at h
  simp [EMmcHost.Sized, hf card h]

/-- Two readings differ in the switched bytes only. -/
def Agree (extCsd extCsd' : Block) : Prop := ∀ i ∉ switched, extCsd i = extCsd' i

theorem Agree.extCsdCapacity {extCsd extCsd' : Block} (h : Agree extCsd extCsd') :
    extCsdCapacity extCsd = extCsdCapacity extCsd' := by
  simp only [Emmc.extCsdCapacity, leBytes]
  rw [h extCsdSecCnt (by decide), h (extCsdSecCnt + 1) (by decide), h (extCsdSecCnt + 1 + 1) (by decide),
    h (extCsdSecCnt + 1 + 1 + 1) (by decide)]

theorem Agree.partCompleted {extCsd extCsd' : Block} (h : Agree extCsd extCsd') :
    partCompleted extCsd = partCompleted extCsd' := by
  rw [Emmc.partCompleted, Emmc.partCompleted, h extCsdPartitionSetting (by decide)]

theorem wp_mmcSendExtCsd (h : host.Sized cap len) :
    Wp content.Answers (mmcSendExtCsd.run host) (fun _ r => Agree r.1 content.extCsd ∧ r.2.Sized cap len)
      (· ≠ .panic .divideByZero) := by
  simp only [mmcSendExtCsd, wp_run_bind, wp_sendCommand, wp_run_pure]
  exact ⟨fun transfer htransfer => ⟨htransfer.2.2 rfl, h⟩, fun err _ => by simp⟩

theorem wp_readRevision {extCsd : Block} (h : host.Sized cap len) :
    Wp content.Answers ((readRevision extCsd).run host)
      (fun _ r => r.2.Sized
        (if extCsd extCsdRev ≥ 2 ∧ extCsdCapacity extCsd >>> 20 > 2 * 1024 then extCsdCapacity extCsd else cap) len)
      (· ≠ .panic .divideByZero) := by
  have hcap : Wp content.Answers ((modifyCard fun card => { card with capacityUser := extCsdCapacity extCsd }).run host)
      (fun _ r => r.2.Sized (extCsdCapacity extCsd) len) (· ≠ .panic .divideByZero) := by
    refine wp_modifyCard_sized h fun card hcard => ?_
    have hlen : card.readBlLen = len := congrArg Prod.snd hcard
    simp [EMmcCard.size, hlen]
  simp only [readRevision, wp_run_ite, wp_run_bind, wp_run_pure]
  refine ⟨fun hrev => ⟨fun hgate => hcap.mono (fun _ r hr => ?_) fun _ => id, fun hgate => ?_⟩, fun hrev => ?_⟩
  · rw [if_pos ⟨hrev, hgate⟩]
    split
    · exact wp_modifyCard_sized hr fun _ => id
    · simp
  · rw [if_neg fun hc => hgate hc.2]
    split
    · exact wp_modifyCard_sized h fun _ => id
    · simp
  · rw [if_neg fun hc => hrev hc.1]
    exact h

theorem hasParts_of_partCompleted {extCsd : Block} (h : partCompleted extCsd) : hasParts extCsd := by
  simp [hasParts, h]

theorem wp_defineEraseGroup {extCsd : Block} (h : host.Sized cap len) :
    Wp content.Answers ((defineEraseGroup extCsd).run host)
      (fun _ r => Agree r.1 extCsd ∧ (partCompleted extCsd → r.1 extCsdEraseGroupDef = 1) ∧ r.2.Sized cap len)
      (· ≠ .panic .divideByZero) := by
  simp only [defineEraseGroup, wp_run_ite, wp_run_bind, wp_run_pure]
  refine ⟨fun _ => ?_, fun hparts => ⟨fun _ _ => rfl, fun hc => ?_, h⟩⟩
  · refine ((Keeps.result (Keeps.mmcSwitch _ _ _)).sized h).mono ?_ fun _ => id
    rintro _ ⟨err | _, host'⟩ hsized
    · simp
    · refine ⟨fun i hi => Function.update_of_ne ?_ _ _, fun _ => ?_, hsized⟩
      · rintro rfl
        exact hi (by decide)
      · change Function.update extCsd extCsdEraseGroupDef 1 extCsdEraseGroupDef = 1
        rw [Function.update_self]
  · exact absurd (hasParts_of_partCompleted hc) hparts

theorem size_withEraseGroup {extCsd : Block} {csd : Vector UInt32 4} {highCapacity : Bool} {card : EMmcCard}
    (hcard : card.size = (cap, len)) (hdef : partCompleted extCsd → extCsd extCsdEraseGroupDef = 1) :
    (card.withEraseGroup extCsd csd highCapacity).size =
      (if highCapacity ∧ partCompleted extCsd then extCsdCapacity extCsd else cap, len) := by
  have hcap : card.capacityUser = cap := congrArg Prod.fst hcard
  have hlen : card.readBlLen = len := congrArg Prod.snd hcard
  by_cases hc : highCapacity ∧ partCompleted extCsd
  · simp [EMmcCard.withEraseGroup, EMmcCard.size, hdef hc.2, hc, hlen]
  · simp only [EMmcCard.withEraseGroup, if_neg hc, EMmcCard.size]
    split <;> simp [hcap, hlen]

/-- The capacity of a card of version 4 that has `cap` from its CSD. -/
theorem wp_initExtCsd {csd : Vector UInt32 4} {highCapacity : Bool} (h : host.Sized cap len) :
    Wp content.Answers ((initExtCsd csd highCapacity).run host)
      (fun _ r => r.2.Sized
        (if highCapacity ∧ partCompleted content.extCsd ∨
            content.extCsd extCsdRev ≥ 2 ∧ extCsdCapacity content.extCsd >>> 20 > 2 * 1024
          then extCsdCapacity content.extCsd else cap) len)
      (· ≠ .panic .divideByZero) := by
  simp only [initExtCsd, wp_run_bind]
  refine (Keeps.mmcSelectHs.sized h).mono (fun _ r hr => ?_) fun _ => id
  refine ((Keeps.mmcSetClock _).sized hr).mono (fun _ r hr => ?_) fun _ => id
  refine (wp_mmcSendExtCsd hr).mono (fun _ r hr => ?_) fun _ => id
  obtain ⟨hagree, hr⟩ := hr
  refine (wp_readRevision hr).mono (fun _ r' hr => ?_) fun _ => id
  refine ((Keeps.modifyCard ?_).sized hr).mono (fun _ r' hr => ?_) fun _ => id
  · exact fun _ => rfl
  refine (wp_defineEraseGroup hr).mono (fun _ r' hr => ?_) fun _ => id
  obtain ⟨hagree', hdef, hr⟩ := hr
  refine (wp_modifyCard_sized hr fun card hcard => size_withEraseGroup hcard ?_).mono (fun _ r'' hr => ?_) fun _ => id
  · rw [hagree'.partCompleted]
    exact hdef
  refine ((Keeps.modifyCard ?_).sized hr).mono (fun _ r'' hr => ?_) fun _ => id
  · exact fun _ => rfl
  rw [hagree'.partCompleted, hagree'.extCsdCapacity, hagree.partCompleted, hagree.extCsdCapacity,
    hagree extCsdRev (by decide)] at hr
  rwa [ite_or]

/-! ## Initialisation -/

/-- A card that `init` has just added. -/
def EMmcHost.Fresh (host : EMmcHost) : Prop := ∃ card, host.card = some card ∧ card.version = mmcVersionUnknown

theorem wp_modifyCard_fresh {f : EMmcCard → EMmcCard} (h : host.Fresh) (hf : ∀ card, (f card).version = card.version) :
    Wp content.Answers ((modifyCard f).run host) (fun _ r => r.2.Fresh) (· ≠ .panic .divideByZero) := by
  obtain ⟨card, hcard, hversion⟩ := h
  rw [wp_modifyCard, hcard]
  refine ⟨fun card' hcard' => ⟨f card', rfl, ?_⟩, nofun⟩
  cases hcard'
  rw [hf, hversion]

theorem EMmcCard.version_ready (card : EMmcCard) (resp : UInt32) : (card.ready resp).version = card.version := by
  rw [EMmcCard.ready]
  split <;> rfl

theorem wp_awaitReady (cmdArg : UInt32) (retry : Nat) (h : host.Fresh) :
    Wp content.Answers ((awaitReady cmdArg retry).run host) (fun _ r => r.1 = content.ocr ∧ r.2.Fresh)
      (· ≠ .panic .divideByZero) := by
  induction retry generalizing host with
  | zero => simp [awaitReady]
  | succ retry ih =>
      simp only [awaitReady, wp_run_bind, wp_sendCommand]
      refine ⟨fun transfer htransfer => ?_, fun err _ => by simp⟩
      refine (wp_modifyCard_fresh h ?_).mono (fun _ r hr => ?_) fun _ => id
      · exact fun _ => rfl
      simp only [wp_run_ite, wp_run_bind, wp_delayUs]
      refine ⟨fun hbusy => ?_, fun _ _ => ih hr⟩
      refine (wp_modifyCard_fresh hr fun card => card.version_ready _).mono (fun _ r' hr => ?_) fun _ => id
      exact ⟨htransfer.1 rfl hbusy, hr⟩

theorem wp_mmcSendOpCond (ocr : UInt32) (retry : Nat) (h : host.Fresh) :
    Wp content.Answers ((mmcSendOpCond ocr retry).run host) (fun _ r => r.1 = content.ocr ∧ r.2.Fresh)
      (· ≠ .panic .divideByZero) := by
  simp only [mmcSendOpCond, wp_run_bind, wp_sendCommand, wp_delayUs, wp_run_get]
  refine ⟨fun transfer _ _ => ?_, fun err _ => by simp⟩
  refine (wp_awaitReady _ retry h).mono (fun _ r hr _ => ?_) fun _ => id
  exact hr

theorem wp_mmcSendCsd (h : host.Fresh) :
    Wp content.Answers (mmcSendCsd.run host)
      (fun _ r => r.1 = content.csd ∧
        ∃ card, r.2.card = some card ∧ card.version = mmcVersionUnknown ∧ card.csd = content.csd)
      (· ≠ .panic .divideByZero) := by
  obtain ⟨card, hcard, hversion⟩ := h
  simp only [mmcSendCsd, wp_run_bind, wp_getCard, wp_sendCommand, wp_modifyCard, wp_run_pure]
  refine ⟨fun _ _ => ⟨fun transfer htransfer => ⟨fun card' hcard' => ?_, fun _ => by simp⟩, fun err _ => by simp⟩,
    fun _ => by simp⟩
  obtain rfl : card = card' := Option.some.inj (hcard.symm.trans hcard')
  exact ⟨htransfer.2.1 rfl, _, rfl, hversion, htransfer.2.1 rfl⟩

theorem mmcVersion4_le_versionOfCsd {csd : Vector UInt32 4} : mmcVersion4 ≤ versionOfCsd csd ↔ csdVersion csd = 4 := by
  rw [versionOfCsd]
  split <;> simp_all <;> decide

/-- The recorded version and size. -/
def EMmcHost.Recorded (host : EMmcHost) (version : UInt32) (cap : UInt64) (len : UInt32) : Prop :=
  ∃ card, host.card = some card ∧ card.version = version ∧ card.size = (cap, len)

theorem EMmcHost.Recorded.sized {version : UInt32} (h : host.Recorded version cap len) : host.Sized cap len := by
  obtain ⟨card, hcard, _, hsize⟩ := h
  rw [EMmcHost.Sized, hcard, Option.map_some, hsize]

theorem wp_decodeCsd {highCapacity : Bool} {card : EMmcCard} (hcard : host.card = some card)
    (hversion : card.version = mmcVersionUnknown) (hcsd : card.csd = content.csd) :
    Wp content.Answers ((decodeCsd content.csd highCapacity).run host)
      (fun _ r => r.2.Recorded (versionOfCsd content.csd) (csdCapacity content.csd highCapacity)
        (clipBlLen (readBlLen content.csd)))
      (· ≠ .panic .divideByZero) := by
  simp only [decodeCsd, wp_run_bind, wp_modifyCard, hcard, Option.some.injEq, wp_run_ite]
  refine ⟨?_, by simp⟩
  rintro _ rfl
  refine ⟨fun _ => ⟨?_, by simp⟩, fun _ => by simp⟩
  rintro _ rfl
  rw [if_pos hversion, hcsd]
  exact ⟨_, rfl, rfl, rfl⟩

theorem wp_modifyCard_recorded {f : EMmcCard → EMmcCard} {version : UInt32} (h : host.Recorded version cap len)
    (hf : ∀ card, (f card).version = card.version ∧ (f card).size = card.size) :
    Wp content.Answers ((modifyCard f).run host) (fun _ r => r.2.Recorded version cap len)
      (· ≠ .panic .divideByZero) := by
  obtain ⟨card, hcard, hversion, hsize⟩ := h
  rw [wp_modifyCard, hcard]
  refine ⟨?_, nofun⟩
  rintro _ ⟨⟩
  exact ⟨f card, rfl, (hf card).1.trans hversion, (hf card).2.trans hsize⟩

/-- A command and nothing else. -/
theorem wp_setDsr {csd : Vector UInt32 4} {version : UInt32} (h : host.Recorded version cap len) :
    Wp content.Answers ((setDsr csd).run host) (fun _ r => r.2.Recorded version cap len)
      (· ≠ .panic .divideByZero) := by
  simp [setDsr, h]

theorem wp_selectCard {version : UInt32} (h : host.Recorded version cap len) :
    Wp content.Answers (selectCard.run host) (fun _ r => r.2.Recorded version cap len) (· ≠ .panic .divideByZero) := by
  simp [selectCard, h]

theorem wp_initVersion4 {csd : Vector UInt32 4} {highCapacity : Bool} {version : UInt32}
    (h : host.Recorded version cap len) :
    Wp content.Answers ((initVersion4 csd highCapacity).run host)
      (fun _ r => r.2.Sized
        (if mmcVersion4 ≤ version ∧ (highCapacity ∧ partCompleted content.extCsd ∨
            content.extCsd extCsdRev ≥ 2 ∧ extCsdCapacity content.extCsd >>> 20 > 2 * 1024)
          then extCsdCapacity content.extCsd else cap) len)
      (· ≠ .panic .divideByZero) := by
  have hsized := h.sized
  obtain ⟨card, hcard, hversion, -⟩ := h
  simp only [initVersion4, wp_run_bind, wp_getCard, wp_run_ite, wp_run_pure, hcard, Option.some.injEq]
  refine ⟨?_, by simp⟩
  rintro _ rfl
  rw [hversion]
  refine ⟨fun hv => ?_, fun hv => ?_⟩
  · simp only [show mmcVersion4 ≤ version from hv, true_and]
    exact wp_initExtCsd hsized
  · rw [if_neg fun hc => hv hc.1]
    exact hsized

theorem wp_mmcSetCapacity_zero (h : host.Sized cap len) :
    Wp content.Answers ((mmcSetCapacity 0).run host) (fun _ r => r.2.Sized cap len)
      (fun stop => len ≠ 0 → stop ≠ .panic .divideByZero) := by
  rw [EMmcHost.Sized, Option.map_eq_some_iff] at h
  obtain ⟨card, hcard, hsize⟩ := h
  have hlen : card.readBlLen = len := congrArg Prod.snd hsize
  simp only [mmcSetCapacity, wp_run_bind, wp_run_get, hcard, EMmcCard.partCapacity, wp_modifyCard, wp_run_ite,
    wp_run_throw, wp_run_pure, Option.some.injEq, hlen]
  refine ⟨?_, by simp⟩
  rintro _ rfl
  refine ⟨fun hzero hne => absurd hzero hne, fun _ => ?_⟩
  exact congrArg some hsize

theorem clipBlLen_ne_zero {len : UInt32} (h : len ≠ 0) : clipBlLen len ≠ 0 := by
  rw [clipBlLen]
  split
  · decide
  · exact h

theorem wp_mmcGoIdle (h : host.Fresh) :
    Wp content.Answers (mmcGoIdle.run host) (fun _ r => r.2.Fresh) (· ≠ .panic .divideByZero) := by
  simp [mmcGoIdle, h]

theorem wp_mmcAllSendCid (h : host.Fresh) :
    Wp content.Answers (mmcAllSendCid.run host) (fun _ r => r.2.Fresh) (· ≠ .panic .divideByZero) := by
  simp only [mmcAllSendCid, wp_run_bind, wp_sendCommand]
  refine ⟨fun transfer _ => wp_modifyCard_fresh h ?_, fun err _ => by simp⟩
  exact fun _ => rfl

theorem wp_mmcSetRelativeAddr (h : host.Fresh) :
    Wp content.Answers (mmcSetRelativeAddr.run host) (fun _ r => r.2.Fresh) (· ≠ .panic .divideByZero) := by
  simp [mmcSetRelativeAddr, h]

/-- Every run that returns records the capacity, and only a block length of exponent zero can divide by zero. -/
theorem wp_initCard (h : host.Fresh) :
    Wp content.Answers (initCard.run host)
      (fun _ r => r.2.Sized content.capacity (clipBlLen (readBlLen content.csd)))
      (fun stop => readBlLen content.csd ≠ 0 → stop ≠ .panic .divideByZero) := by
  have hexc : ∀ stop : Stop, stop ≠ .panic .divideByZero → readBlLen content.csd ≠ 0 → stop ≠ .panic .divideByZero :=
    fun _ hstop _ => hstop
  simp only [initCard, wp_run_bind]
  -- The version stays unknown up to the CSD.
  refine (wp_mmcGoIdle h).mono (fun _ r hr => ?_) hexc
  refine (wp_mmcSendOpCond 0 100 hr).mono (fun _ r hr => ?_) hexc
  obtain ⟨hocr, hr⟩ := hr
  refine (wp_modifyCard_fresh hr ?_).mono (fun _ r' hr => ?_) hexc
  · exact fun _ => rfl
  refine (wp_modifyCard_fresh hr ?_).mono (fun _ r' hr => ?_) hexc
  · exact fun _ => rfl
  refine (wp_mmcAllSendCid hr).mono (fun _ r' hr => ?_) hexc
  refine (wp_mmcSetRelativeAddr hr).mono (fun _ r' hr => ?_) hexc
  refine (wp_mmcSendCsd hr).mono (fun _ r' hr => ?_) hexc
  obtain ⟨hcsd, card, hcard, hversion, hcard'⟩ := hr
  rw [hcsd, hocr]
  refine (wp_decodeCsd hcard hversion hcard').mono (fun _ r' hr => ?_) hexc
  -- From here on the size is known.
  refine (wp_setDsr hr).mono (fun _ r' hr => ?_) hexc
  refine (wp_selectCard hr).mono (fun _ r' hr => ?_) hexc
  refine (wp_modifyCard_recorded hr ?_).mono (fun _ r' hr => ?_) hexc
  · exact fun _ => ⟨rfl, rfl⟩
  refine (wp_initVersion4 hr).mono (fun _ r' hr => ?_) hexc
  refine (wp_mmcSetCapacity_zero hr).mono (fun _ r' hr => ?_) fun stop hstop hne => hstop (clipBlLen_ne_zero hne)
  refine (Keeps.mmcChangeFreq.sized hr).mono (fun _ r' hr => ?_) hexc
  refine ((Keeps.modifyCard ?_).sized hr).mono (fun _ r' hr => ?_) hexc
  · exact fun _ => rfl
  convert hr using 2
  exact if_congr (and_congr_left fun _ => mmcVersion4_le_versionOfCsd.symm) rfl rfl

end

/-! ## The declared capacity -/

/-- A little-endian number of several bytes. -/
def leNat (extCsd : Block) (index : Fin 512) : Nat → Nat
  | 0 => 0
  | count + 1 => (extCsd index).toNat + 2 ^ 8 * leNat extCsd (index + 1) count

theorem leNat_lt (extCsd : Block) (index : Fin 512) (count : Nat) : leNat extCsd index count < 2 ^ (8 * count) := by
  induction count generalizing index with
  | zero => exact Nat.one_pos
  | succ count ih =>
      have hbyte := (extCsd index).toNat_lt
      have hrest := ih (index + 1)
      rw [leNat, Nat.mul_succ, Nat.add_comm (8 * count), Nat.pow_add]
      omega

theorem toNat_leBytes {extCsd : Block} {index : Fin 512} {count : Nat} (h : count ≤ 8) :
    (leBytes extCsd index count).toNat = leNat extCsd index count := by
  induction count generalizing index with
  | zero => rfl
  | succ count ih =>
      have hbyte : (extCsd index).toNat < 2 ^ 8 := (extCsd index).toNat_lt
      have hrest := leNat_lt extCsd (index + 1) count
      have hpow : 2 ^ 8 * 2 ^ (8 * count) ≤ 2 ^ 64 := by
        rw [← Nat.pow_add]
        exact Nat.pow_le_pow_right (by decide) (by omega)
      have hfit : 2 ^ 8 * leNat extCsd (index + 1) count < 2 ^ 64 := by omega
      rw [leBytes, UInt64.toNat_or, UInt64.toNat_shiftLeft, ih (by omega), UInt8.toNat_toUInt64, leNat]
      change _ ||| leNat extCsd (index + 1) count <<< 8 % 2 ^ 64 = _
      rw [Nat.shiftLeft_eq, Nat.mod_eq_of_lt (by omega), Nat.lor_comm, ← Nat.shiftLeft_eq,
        ← Nat.shiftLeft_add_eq_or_of_lt hbyte, Nat.shiftLeft_eq]
      omega

/-- `SEC_COUNT` -/
def secCount (extCsd : Block) : Nat := leNat extCsd extCsdSecCnt 4

theorem secCount_lt (extCsd : Block) : secCount extCsd < 2 ^ 32 := leNat_lt extCsd extCsdSecCnt 4

theorem toNat_extCsdCapacity (extCsd : Block) : (extCsdCapacity extCsd).toNat = secCount extCsd * 512 := by
  have hlt := secCount_lt extCsd
  rw [extCsdCapacity, UInt64.toNat_mul, toNat_leBytes (by decide), ← secCount]
  exact Nat.mod_eq_of_lt (by change secCount extCsd * 512 < 2 ^ 64; omega)

theorem gate_iff (extCsd : Block) : extCsdCapacity extCsd >>> 20 > 2 * 1024 ↔ 2049 * 2 ^ 20 ≤ secCount extCsd * 512 := by
  rw [gt_iff_lt, UInt64.lt_iff_toNat_lt, UInt64.toNat_shiftRight, toNat_extCsdCapacity]
  change 2048 < (secCount extCsd * 512) >>> 20 ↔ _
  rw [Nat.shiftRight_eq_div_pow]
  omega

/-- `(C_SIZE + 1) * 2^(C_SIZE_MULT + 2) * 2^READ_BL_LEN` of a byte-addressed card. -/
def declaredBytes (csd : Vector UInt32 4) : Nat :=
  ((csize csd false).toNat + 1) * 2 ^ ((cmult csd false).toNat + 2) * 2 ^ (readBlLen csd).toNat

/-- The capacity is `SEC_COUNT` for every sector-addressed card of revision 2 or later, the declared bytes for every
byte-addressed one, and no run divides by zero. -/
def CapacityExact (content : CardContent) (host : EMmcHost) : Prop :=
  Wp content.Answers (initCard.run host)
    (fun _ r =>
      (content.sectorAddressed → 2 ≤ content.extCsd extCsdRev →
        (getBlockNum r.2).toNat * 512 = secCount content.extCsd * 512) ∧
      (¬ content.sectorAddressed →
        (getBlockNum r.2).toNat * 512 = declaredBytes content.csd / 512 * 512))
    (· ≠ .panic .divideByZero)

theorem getBlockNum_of_sized {host : EMmcHost} {cap : UInt64} {len : UInt32} (h : host.Sized cap len) :
    getBlockNum host = cap / 512 := by
  rw [EMmcHost.Sized, Option.map_eq_some_iff] at h
  obtain ⟨card, hcard, hsize⟩ := h
  rw [getBlockNum, hcard]
  exact congrArg (· / 512) (congrArg Prod.fst hsize)

/-- The code asks for more than 2 GiB before it takes `SEC_COUNT`, or for a completed partitioning. -/
theorem ext_csd_capacity_exact (content : CardContent) (host : EMmcHost) (hfresh : host.Fresh) :
    Wp content.Answers (initCard.run host)
      (fun _ r =>
        csdVersion content.csd = 4 →
        (2 ≤ content.extCsd extCsdRev ∧ 2049 * 2 ^ 20 ≤ secCount content.extCsd * 512) ∨
          (content.sectorAddressed ∧ partCompleted content.extCsd) →
        (getBlockNum r.2).toNat * 512 = secCount content.extCsd * 512)
      (fun stop => readBlLen content.csd ≠ 0 → stop ≠ .panic .divideByZero) := by
  refine (wp_initCard hfresh).mono (fun _ r hsized hversion hext => ?_) fun _ => id
  have hby : content.ByExtCsd := by
    refine ⟨hversion, ?_⟩
    rw [gate_iff]
    exact hext.symm
  rw [getBlockNum_of_sized hsized, CardContent.capacity, if_pos hby, UInt64.toNat_div, toNat_extCsdCapacity]
  exact Nat.div_mul_cancel (Nat.dvd_mul_left 512 _)

/-! ## One card -/

/-- A host as `init` sets it up. -/
def readyHost : EMmcHost where
  card := some (.init .unknown)
  voltages := 0
  quirks := 0
  hostCaps := 0x4f

/-- A sector-addressed card of revision 8 with the given upper half of `SEC_COUNT`. -/
def sampleCard (sec2 sec3 : UInt8) : CardContent where
  ocr := 0xC0000000
  csd := #v[0x10000032, 0x00090000, 0, 0]
  extCsd := fun i =>
    if i = extCsdRev then 8
    else if i = extCsdCardType then 3
    else if i = extCsdSecCnt + 2 then sec2
    else if i = extCsdSecCnt + 3 then sec3
    else 0

/-- The answers of the card and of a controller that is always ready. -/
def sampleAnswers (sec2 sec3 : UInt8) : ∀ call : HostCall, call.Answer
  | .readReg _ => (0 : UInt32)
  | .readReg16 _ => emmcClockIntStable
  | .readReg8 _ => (0 : UInt8)
  | .writeReg _ _ | .writeReg16 _ _ | .writeReg8 _ _ | .delayUs _ => ()
  | .emmcSetClk rate => .ok rate
  | .sendCommand cmd =>
      .ok
        { response :=
            if cmd.opcode = Opcode.mmcSendOpCond then ⟨#v[0xC0000000, 0, 0, 0]⟩
            else if cmd.opcode = Opcode.mmcSendCsd then ⟨#v[0, 0, 0x32000900, 0x00100000]⟩
            else ⟨Vector.replicate 4 0⟩
          data := (sampleCard sec2 sec3).extCsd }

theorem answers_sampleAnswers (sec2 sec3 : UInt8) (call : HostCall) :
    (sampleCard sec2 sec3).Answers call (sampleAnswers sec2 sec3 call) := by
  cases call with
  | sendCommand cmd =>
      refine ⟨fun hop _ => ?_, fun hop => ?_, fun _ _ _ => rfl⟩
      · simp only [hop]
        rfl
      · simp only [hop]
        rfl
  | _ => trivial

/-- A card of 8 GiB, on which some run returns. -/
theorem ext_csd_capacity_exact_large :
    readyHost.Fresh ∧
      Wp (sampleCard 0 1).Answers (initCard.run readyHost)
        (fun _ r => (getBlockNum r.2).toNat * 512 = 8 * 2 ^ 30) (· ≠ .panic .divideByZero) ∧
      ((initCard.run readyHost).exec (sampleAnswers 0 1)).2.toOption.map (fun r => getBlockNum r.2) =
        some 16777216 := by
  have hfresh : readyHost.Fresh := ⟨_, rfl, rfl⟩
  refine ⟨hfresh, (ext_csd_capacity_exact (sampleCard 0 1) readyHost hfresh).mono (fun _ r h => ?_) ?_, ?_⟩
  · exact h (by decide) (.inl (by decide))
  · exact fun _ h => h (by decide)
  · decide +kernel

/-- A card of 1 GiB keeps the capacity that the code computes from its CSD. -/
theorem blockNum_small :
    ((initCard.run readyHost).exec (sampleAnswers 0x20 0)).2.toOption.map (fun r => getBlockNum r.2) = some 18 := by
  decide +kernel

theorem capacity_not_exact : ¬ CapacityExact (sampleCard 0x20 0) readyHost := by
  intro h
  obtain ⟨r, hr, hblocks⟩ := Option.map_eq_some_iff.mp blockNum_small
  have hret : ((initCard.run readyHost).exec (sampleAnswers 0x20 0)).2 = .ok r := by
    cases hexec : ((initCard.run readyHost).exec (sampleAnswers 0x20 0)).2 with
    | error stop => rw [hexec] at hr; cases hr
    | ok r' => rw [hexec] at hr; cases hr; rfl
  have hcap := ((h.exec (answers_sampleAnswers 0x20 0)).1 r hret).1 (by decide) (by decide)
  rw [hblocks] at hcap
  exact absurd hcap (by decide)

end Rknpu.Emmc
