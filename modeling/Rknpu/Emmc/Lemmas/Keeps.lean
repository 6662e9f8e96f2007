import Rknpu.Emmc.Card
import Rknpu.Emmc.Lemmas.Calls

/-!
# What leaves the capacity alone

Most of `init_card` touches neither the capacity nor the block length that it has recorded, and does not divide. Such
programs are closed under the constructs of the model; `mmc_set_capacity` and the steps that record the capacity are the
only others.
-/

namespace Rknpu.Emmc

open Prog

/-- The capacity and the divisor of `mmc_set_capacity`. -/
def EMmcCard.size (card : EMmcCard) : UInt64 × UInt32 := (card.capacityUser, card.readBlLen)

def EMmcHost.SameSize (host host' : EMmcHost) : Prop := host'.card.map EMmcCard.size = host.card.map EMmcCard.size

variable {ok : ∀ call : HostCall, call.Answer → Prop} {α β : Type}

/-- Every run keeps the recorded size and does not divide by zero. -/
def Keeps (ok : ∀ call : HostCall, call.Answer → Prop) (m : HostM α) : Prop :=
  ∀ host, Wp ok (m.run host) (fun _ r => host.SameSize r.2) (· ≠ .panic .divideByZero)

namespace Keeps

theorem pure (a : α) : Keeps ok (pure a) := fun _ => rfl

theorem throw {stop : Stop} (h : stop ≠ .panic .divideByZero) : Keeps ok (throw stop : HostM α) := fun _ => h

theorem get : Keeps ok (get : HostM EMmcHost) := fun _ => rfl

theorem bind {m : HostM α} {f : α → HostM β} (hm : Keeps ok m) (hf : ∀ a, Keeps ok (f a)) :
    Keeps ok (m >>= f) := by
  intro host
  rw [StateT.run_bind]
  refine (hm host).seq fun _ r hr => (hf r.1 r.2).mono (fun _ r' hr' => hr'.trans hr) fun _ => id

theorem ite {c : Prop} [Decidable c] {m m' : HostM α} (hm : Keeps ok m) (hm' : Keeps ok m') :
    Keeps ok (if c then m else m') := by
  split <;> assumption

theorem readReg (offset : UInt32) : Keeps ok (readReg offset) := fun _ => by simp [EMmcHost.SameSize]

theorem readReg16 (offset : UInt32) : Keeps ok (readReg16 offset) := fun _ => by simp [EMmcHost.SameSize]

theorem readReg8 (offset : UInt32) : Keeps ok (readReg8 offset) := fun _ => by simp [EMmcHost.SameSize]

theorem writeReg (offset value : UInt32) : Keeps ok (writeReg offset value) :=
  fun _ => by simp [EMmcHost.SameSize]

theorem writeReg16 (offset : UInt32) (value : UInt16) : Keeps ok (writeReg16 offset value) :=
  fun _ => by simp [EMmcHost.SameSize]

theorem writeReg8 (offset : UInt32) (value : UInt8) : Keeps ok (writeReg8 offset value) :=
  fun _ => by simp [EMmcHost.SameSize]

theorem delayUs (us : UInt64) : Keeps ok (delayUs us) := fun _ => by simp [EMmcHost.SameSize]

theorem emmcSetClk (rate : UInt64) : Keeps ok (emmcSetClk rate) := fun _ => by simp [EMmcHost.SameSize]

theorem sendCommand (cmd : EMmcCommand) : Keeps ok (sendCommand cmd) := fun _ => by simp [EMmcHost.SameSize]

theorem getCard : Keeps ok getCard := fun _ => by simp [EMmcHost.SameSize]

theorem modifyCard {f : EMmcCard → EMmcCard} (hf : ∀ card, (f card).size = card.size) :
    Keeps ok (modifyCard f) := by
  intro host
  rw [wp_modifyCard]
  refine ⟨fun card hcard => ?_, fun _ => nofun⟩
  simp [EMmcHost.SameSize, hcard, hf]

theorem unwrap {m : HostM α} (hm : Keeps ok m) : Keeps ok (unwrap m) := by
  intro host
  rw [wp_unwrap]
  refine (hm host).mono (fun _ _ => id) fun stop hstop => ?_
  cases stop with
  | err err => nofun
  | panic cause => exact hstop

theorem result {m : HostM α} (hm : Keeps ok m) : Keeps ok (result m) := by
  intro host
  refine wp_run_tryCatch.mpr (wp_run_bind.mpr ((hm host).mono (fun _ _ => id) fun stop hstop => ?_))
  cases stop with
  | err err => rfl
  | panic cause => exact hstop

/-! ## The bus -/

theorem awaitInhibit (timeout : Nat) : Keeps ok (awaitInhibit timeout) := by
  induction timeout with
  | zero => exact bind (readReg _) fun _ => ite (throw nofun) (pure ())
  | succ timeout ih => exact bind (readReg _) fun _ => ite (bind (delayUs _) fun _ => ih) (pure ())

theorem awaitStable (timeout : Nat) : Keeps ok (awaitStable timeout) := by
  induction timeout with
  | zero => exact throw nofun
  | succ timeout ih => exact bind (readReg16 _) fun _ => ite (bind (delayUs _) fun _ => ih) (pure ())

theorem awaitDll (timeout : Nat) : Keeps ok (awaitDll timeout) := by
  induction timeout with
  | zero => exact throw nofun
  | succ timeout ih => exact bind (readReg _) fun _ => ite (pure ()) (bind (delayUs _) fun _ => ih)

theorem enableCardClock (clk : UInt16) : Keeps ok (enableCardClock clk) :=
  bind (writeReg16 _ _) fun _ => bind (awaitStable 20) fun _ => writeReg16 _ _

theorem chooseDivider (inputClk freq : UInt32) : Keeps ok (chooseDivider inputClk freq) := by
  refine bind (readReg16 _) fun _ => ite (bind (readReg _) fun _ => ite ?_ (pure _)) (pure _)
  exact bind (ite (pure _) (throw nofun)) fun _ => pure _

theorem rockchipEmmcSetClock (freq : UInt32) : Keeps ok (rockchipEmmcSetClock freq) := by
  refine bind (awaitInhibit 20) fun _ => bind (writeReg16 _ _) fun _ => ite (pure ()) ?_
  refine bind (emmcSetClk _) fun _ => bind (chooseDivider _ _) fun _ => ?_
  exact bind (writeReg16 _ _) fun _ => enableCardClock _

theorem selectTxTap (data : EMmcChipConfig) (timing tapValue : UInt32) :
    Keeps ok (selectTxTap data timing tapValue) :=
  ite (bind (writeReg _ _) fun _ => pure _) (pure _)

theorem enableDll (data : EMmcChipConfig) (timing : UInt32) : Keeps ok (enableDll data timing) := by
  refine bind (writeReg _ _) fun _ => bind (delayUs _) fun _ => bind (writeReg _ _) fun _ => ?_
  refine bind (writeReg _ _) fun _ => bind (writeReg _ _) fun _ => bind (awaitDll 500) fun _ => ?_
  refine bind (readReg _) fun _ => bind (writeReg _ _) fun _ => bind (selectTxTap _ _ _) fun _ => ?_
  exact bind (writeReg _ _) fun _ => writeReg _ _

theorem bypassDll : Keeps ok bypassDll := by
  refine bind (writeReg _ _) fun _ => bind (readReg _) fun _ => bind (writeReg _ _) fun _ => ?_
  refine bind (writeReg _ _) fun _ => bind (writeReg _ _) fun _ => bind (writeReg _ _) fun _ => ?_
  exact bind (writeReg _ _) fun _ => writeReg _ _

theorem dwcmshcSdhciEmmcSetClock (freq : UInt32) : Keeps ok (dwcmshcSdhciEmmcSetClock freq) := by
  refine bind getCard fun _ => bind (rockchipEmmcSetClock freq) fun _ => bind (writeReg16 _ _) fun _ => ?_
  exact ite (bind (enableDll _ _) fun _ => enableCardClock 0) (bind bypassDll fun _ => enableCardClock 0)

theorem sdhciSetPower (power : UInt32) : Keeps ok (sdhciSetPower power) :=
  ite (writeReg8 _ _) (bind (writeReg8 _ _) fun _ => delayUs _)

theorem sdhciSetUhsSignaling : Keeps ok sdhciSetUhsSignaling :=
  bind getCard fun _ => bind (readReg16 _) fun _ => writeReg16 _ _

theorem sdhciSetIos : Keeps ok sdhciSetIos := by
  refine bind getCard fun _ => bind (unwrap (dwcmshcSdhciEmmcSetClock _)) fun _ => bind get fun _ => ?_
  refine bind (readReg8 _) fun _ => bind (bind (readReg16 _) fun _ => pure _) fun _ => bind (writeReg8 _ _) fun _ => ?_
  exact ite (bind (unwrap (sdhciSetPower _)) fun _ => sdhciSetUhsSignaling) sdhciSetUhsSignaling

theorem mmcSetBusWidth (width : UInt8) : Keeps ok (mmcSetBusWidth width) :=
  bind (modifyCard fun _ => rfl) fun _ => sdhciSetIos

theorem mmcSetTiming (timing : UInt32) : Keeps ok (mmcSetTiming timing) :=
  bind (modifyCard fun _ => rfl) fun _ => sdhciSetIos

theorem mmcSetClock (clk : UInt32) : Keeps ok (mmcSetClock clk) :=
  bind (modifyCard fun _ => rfl) fun _ => sdhciSetIos

/-! ## Commands -/

theorem mmcSendExtCsd : Keeps ok mmcSendExtCsd := bind (sendCommand _) fun _ => pure _

theorem pollBusy (sendStatus : Bool) : Keeps ok (pollBusy sendStatus) := by
  refine ite (bind getCard fun _ => bind (sendCommand _) fun _ => ?_) (bind (readReg _) fun _ => pure _)
  exact ite (throw nofun) (pure _)

theorem mmcPollForBusy (sendStatus : Bool) (timeout : Nat) : Keeps ok (mmcPollForBusy sendStatus timeout) := by
  have hidle : Keeps ok (if sendStatus then return () else Emmc.delayUs 1000 : HostM Unit) :=
    ite (pure ()) (delayUs _)
  induction timeout with
  | zero => exact bind (pollBusy _) fun _ => ite (throw nofun) hidle
  | succ timeout ih => exact bind (pollBusy _) fun _ => ite (bind (delayUs _) fun _ => ih) hidle

theorem switchAttempts (cmd : EMmcCommand) (sendStatus : Bool) (retries : Nat) :
    Keeps ok (switchAttempts cmd sendStatus retries) := by
  induction retries with
  | zero => exact throw nofun
  | succ retries ih =>
      refine bind (result (sendCommand cmd)) ?_
      rintro (err | transfer)
      · exact ih
      · exact mmcPollForBusy sendStatus 1000

theorem mmcSwitch (index : Fin 512) (value : UInt8) (sendStatus : Bool) :
    Keeps ok (mmcSwitch index value sendStatus) :=
  switchAttempts _ sendStatus 3

theorem mmcSelectHs : Keeps ok mmcSelectHs := bind (mmcSwitch _ _ _) fun _ => mmcSetTiming _

/-! ## Speed -/

theorem tryBusWidths (extCsd : Block) (widths : List (UInt8 × UInt8)) : Keeps ok (tryBusWidths extCsd widths) := by
  induction widths with
  | nil => exact throw nofun
  | cons width widths ih =>
      refine bind (result (mmcSwitch _ _ _)) ?_
      rintro (err | _)
      · exact ih
      refine bind (mmcSetBusWidth _) fun _ => bind (result mmcSendExtCsd) ?_
      rintro (err | testCsd)
      · exact ih
      · exact ite (pure _) ih

theorem mmcSelectBusWidth : Keeps ok mmcSelectBusWidth := by
  refine bind get fun _ => bind get fun _ => ite (pure _) ?_
  exact bind mmcSendExtCsd fun _ => tryBusWidths _ _

theorem mmcSelectHs200 : Keeps ok mmcSelectHs200 := by
  refine bind mmcSelectBusWidth fun _ => ite ?_ (pure ())
  exact bind (mmcSwitch _ _ _) fun _ => mmcSetTiming _

theorem mmcSetBusSpeed (availType : UInt16) : Keeps ok (mmcSetBusSpeed availType) :=
  bind getCard fun _ => mmcSetClock _

theorem emmcSendTuning (opcode : UInt8) : Keeps ok (emmcSendTuning opcode) := by
  refine bind getCard fun _ => bind (writeReg16 _ _) fun _ => bind (writeReg16 _ _) fun _ => ?_
  exact bind (sendCommand _) fun _ => pure ()

theorem emmcExecuteTuning (opcode : UInt8) (loops : Nat) : Keeps ok (emmcExecuteTuning opcode loops) := by
  induction loops with
  | zero => exact throw nofun
  | succ loops ih =>
      refine bind (emmcSendTuning opcode) fun _ => bind (readReg16 _) fun _ => ite ih ?_
      exact ite (pure ()) (throw nofun)

theorem mmcHs200Tuning : Keeps ok mmcHs200Tuning := by
  refine bind getCard fun _ => ite (bind (readReg16 _) fun _ => ?_) (throw nofun)
  exact bind (writeReg16 _ _) fun _ => emmcExecuteTuning _ 40

theorem finishMode (availType : UInt16) : Keeps ok (finishMode availType) := by
  refine bind getCard fun card => ite ?_ (ite ?_ (pure ()))
  · refine bind (result mmcHs200Tuning) fun r => ?_
    cases r with
    | ok _ => exact ite (bind (mmcSetBusSpeed _) fun _ => pure ()) (pure ())
    | error err => exact ite (bind (mmcSetBusSpeed _) fun _ => throw (by simp)) (throw (by simp))
  · refine bind mmcSelectBusWidth fun _ => ite (throw (by simp)) ?_
    exact ite (throw (by simp)) (pure ())

theorem mmcChangeFreq : Keeps ok mmcChangeFreq := by
  have hend : ∀ availType, Keeps ok (do Emmc.mmcSetBusSpeed availType; Emmc.finishMode availType) :=
    fun availType => bind (mmcSetBusSpeed availType) fun _ => finishMode availType
  refine bind (modifyCard fun _ => rfl) fun _ => bind getCard fun _ => ite (pure ()) ?_
  refine bind (modifyCard fun _ => rfl) fun _ => bind mmcSendExtCsd fun _ => bind get fun _ => ite ?_ (ite ?_ ?_)
  · exact bind mmcSelectHs200 fun _ => hend _
  · exact bind mmcSelectHs fun _ => hend _
  · exact bind (throw nofun) fun _ => hend _

end Keeps

end Rknpu.Emmc
