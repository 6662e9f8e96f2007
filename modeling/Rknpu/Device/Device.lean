import Rknpu.Device.Gem

/-!
# The device

The part of `lib.rs` and `registers/mod.rs` that the scheduler and the action ioctl use: the status each core's
interrupt handler publishes, taking it back, and the action opcodes. What the hardware registers hold is an
argument.
-/

namespace Rknpu.Device

open Queue

/-! ## Interrupt status -/

/-- `rknpu_fuzz_status`: either bit of a pair reports the pair, higher bits are dropped. -/
def rknpuFuzzStatus (status : UInt32) : UInt32 :=
  [(0x3 : UInt32), 0xc, 0x30, 0xc0, 0x300, 0xc00].foldl
    (fun fuzzStatus pair => if status &&& pair ≠ 0 then fuzzStatus ||| pair else fuzzStatus) 0

/-- The six pairs are the low twelve bits. -/
theorem rknpuFuzzStatus_ne_zero {status : UInt32} : rknpuFuzzStatus status ≠ 0 ↔ status &&& 0xfff ≠ 0 := by
  have hlow : status &&& 0xfff = (status &&& 0x3) ||| (status &&& 0xc) ||| (status &&& 0x30) ||| (status &&& 0xc0) |||
      (status &&& 0x300) ||| (status &&& 0xc00) := by
    apply UInt32.toBitVec_inj.mp
    simp only [UInt32.toBitVec_and, UInt32.toBitVec_or, ← BitVec.and_or_distrib_left]
    rfl
  rw [hlow]
  simp only [rknpuFuzzStatus, List.foldl_cons, List.foldl_nil, ne_eq, UInt32.or_eq_zero_iff]
  split_ifs <;> simp_all

/-- The atomics of one core that its interrupt handler shares with the driver. -/
structure RknpuCore where
  irqStatus : UInt32
  irqTimestampNs : UInt64
deriving DecidableEq, Repr

namespace RknpuCore

def new : RknpuCore where
  irqStatus := 0
  irqTimestampNs := 0

/-- `handle_interrupt_at` after the registers gave `intStatus`. The first time stamp is kept. -/
def handleInterruptAt (core : RknpuCore) (intStatus : UInt32) (irqTimeNs : UInt64) : UInt32 × RknpuCore :=
  let fuzzed := rknpuFuzzStatus intStatus
  if fuzzed ≠ 0 then
    (fuzzed, {
      irqStatus := core.irqStatus ||| fuzzed
      irqTimestampNs :=
        if irqTimeNs ≠ 0 ∧ core.irqTimestampNs = 0 then irqTimeNs else core.irqTimestampNs })
  else (fuzzed, core)

/-- `clear_completion_shadow`. -/
def clearCompletionShadow (_ : RknpuCore) : RknpuCore := RknpuCore.new

end RknpuCore

/-! ## Chip data -/

structure RknpuAmountData where
  offsetClrAll : UInt16
  offsetDtWr : UInt16
  offsetDtRd : UInt16
  offsetWtRd : UInt16
deriving DecidableEq, Repr

/-- The fields of `RknpuData` that the action ioctl and the submit path read. -/
structure RknpuData where
  pcDataAmountScale : UInt32
  pcTaskNumberBits : UInt32
  /-- The number of interrupt lines. -/
  irqs : Nat
  nbufSize : UInt64
  amountTop : Option RknpuAmountData
  amountCore : Option RknpuAmountData
deriving DecidableEq, Repr

/-- The only chip the driver knows. -/
def RknpuData.new3588 : RknpuData where
  pcDataAmountScale := 2
  pcTaskNumberBits := 12
  irqs := 3
  nbufSize := 0
  amountTop := none
  amountCore := none

/-- What the registers of core 0 hold. -/
structure Registers where
  version : UInt32
  versionNum : UInt32
  read : UInt16 → UInt32

/-! ## The device -/

/-- The device `Rknpu`: one entry of `base` per core. -/
structure RknpuDev where
  base : List RknpuCore
  data : RknpuData
  iommuEnabled : Bool
  iommuDomainId : Int32
  gem : GemPool

namespace RknpuDev

def new (coreCount : Nat) (data : RknpuData) : RknpuDev where
  base := List.replicate coreCount RknpuCore.new
  data := data
  iommuEnabled := false
  iommuDomainId := 0
  gem := GemPool.new

/-- The status published for a core; a core the device lacks publishes nothing. -/
def irqStatus (dev : RknpuDev) (coreSlot : Nat) : UInt32 :=
  match dev.base[coreSlot]? with
  | none => 0
  | some core => core.irqStatus

def modifyCore (dev : RknpuDev) (coreSlot : Nat) (f : RknpuCore → RknpuCore) : RknpuDev :=
  { dev with base := dev.base.modify coreSlot f }

/-- Read, clear and publish the interrupt of a core. -/
def handleInterruptAt (dev : RknpuDev) (coreSlot : Nat) (intStatus : UInt32) (irqTimeNs : UInt64) : UInt32 × RknpuDev :=
  match dev.base[coreSlot]? with
  | none => (0, dev)
  | some core =>
      ((core.handleInterruptAt intStatus irqTimeNs).1,
        dev.modifyCore coreSlot fun core => (core.handleInterruptAt intStatus irqTimeNs).2)

/-- The end of `drain_pending_interrupts`, and the clear before a task is started. -/
def clearCompletionShadow (dev : RknpuDev) (coreSlot : Nat) : RknpuDev :=
  dev.modifyCore coreSlot RknpuCore.clearCompletionShadow

/-- One turn of the loop of `harvest_completed_dispatches`: swap both atomics out if the status is not zero. -/
def takeCompletion (dev : RknpuDev) (coreSlot : Nat) : Option RknpuCore × RknpuDev :=
  match dev.base[coreSlot]? with
  | none => (none, dev)
  | some core =>
      if core.irqStatus = 0 then (none, dev)
      else (some core, dev.clearCompletionShadow coreSlot)

/-- `soft_reset` clears what every core has published. -/
def softReset (dev : RknpuDev) : RknpuDev :=
  { dev with base := dev.base.map RknpuCore.clearCompletionShadow }

/-- One traffic counter: the top-level one and the per-core one, if there are any. -/
def rwAmount (dev : RknpuDev) (regs : Registers) (offset : RknpuAmountData → UInt16) : UInt32 :=
  match dev.data.amountTop with
  | none => 0
  | some top =>
      let amount := (regs.read (offset top)).saturatingMul dev.data.pcDataAmountScale
      match dev.data.amountCore with
      | none => amount
      | some core => amount.saturatingAdd ((regs.read (offset core)).saturatingMul dev.data.pcDataAmountScale)

def getTotalRwAmount (dev : RknpuDev) (regs : Registers) : UInt32 :=
  ((dev.rwAmount regs (·.offsetDtWr)).saturatingAdd (dev.rwAmount regs (·.offsetDtRd))).saturatingAdd
    (dev.rwAmount regs (·.offsetWtRd))

/-! ## What a core has published -/

variable {dev : RknpuDev} {coreSlot c : Nat}

theorem lt_length_of_irqStatus (h : dev.irqStatus coreSlot ≠ 0) : coreSlot < dev.base.length := by
  by_contra hge
  rw [irqStatus, List.getElem?_eq_none (Nat.le_of_not_lt hge)] at h
  exact h rfl

theorem irqStatus_eq {core : RknpuCore} (h : dev.base[coreSlot]? = some core) :
    dev.irqStatus coreSlot = core.irqStatus := by
  rw [irqStatus, h]

theorem irqStatus_modifyCore_self {core : RknpuCore} (h : dev.base[coreSlot]? = some core)
    (f : RknpuCore → RknpuCore) : (dev.modifyCore coreSlot f).irqStatus coreSlot = (f core).irqStatus := by
  refine irqStatus_eq ?_
  rw [modifyCore, List.getElem?_modify_eq, h]
  rfl

theorem irqStatus_modifyCore_of_ne (h : coreSlot ≠ c) (f : RknpuCore → RknpuCore) :
    (dev.modifyCore coreSlot f).irqStatus c = dev.irqStatus c := by
  unfold irqStatus modifyCore
  dsimp only
  rw [List.getElem?_modify_ne _ _ h]

theorem length_modifyCore (dev : RknpuDev) (coreSlot : Nat) (f : RknpuCore → RknpuCore) :
    (dev.modifyCore coreSlot f).base.length = dev.base.length :=
  List.length_modify ..

theorem irqStatus_clearCompletionShadow_self : (dev.clearCompletionShadow coreSlot).irqStatus coreSlot = 0 := by
  cases h : dev.base[coreSlot]? with
  | none =>
      rw [irqStatus, clearCompletionShadow, modifyCore, List.getElem?_modify_eq, h]
      rfl
  | some core => exact irqStatus_modifyCore_self h _

theorem irqStatus_clearCompletionShadow_of_ne (h : coreSlot ≠ c) :
    (dev.clearCompletionShadow coreSlot).irqStatus c = dev.irqStatus c :=
  irqStatus_modifyCore_of_ne h _

theorem irqStatus_new (coreCount coreSlot : Nat) (data : RknpuData) : (new coreCount data).irqStatus coreSlot = 0 := by
  unfold irqStatus new
  dsimp only
  rw [List.getElem?_replicate]
  by_cases h : coreSlot < coreCount
  · rw [if_pos h]
    rfl
  · rw [if_neg h]

/-- Clearing a status publishes nothing. -/
theorem irqStatus_of_clearCompletionShadow (h : (dev.clearCompletionShadow coreSlot).irqStatus c ≠ 0) :
    coreSlot ≠ c ∧ dev.irqStatus c ≠ 0 := by
  have hne : coreSlot ≠ c := by
    rintro rfl
    exact h irqStatus_clearCompletionShadow_self
  rw [irqStatus_clearCompletionShadow_of_ne hne] at h
  exact ⟨hne, h⟩

theorem irqStatus_softReset (dev : RknpuDev) (coreSlot : Nat) : dev.softReset.irqStatus coreSlot = 0 := by
  rw [irqStatus, softReset, List.getElem?_map]
  cases dev.base[coreSlot]? with
  | none => rfl
  | some core => rfl

/-- An interrupt adds bits to the status of its core and says which. -/
theorem irqStatus_handleInterruptAt (dev : RknpuDev) (coreSlot c : Nat) (intStatus : UInt32) (irqTimeNs : UInt64) :
    (dev.handleInterruptAt coreSlot intStatus irqTimeNs).2.irqStatus c =
      if coreSlot = c then dev.irqStatus c ||| (dev.handleInterruptAt coreSlot intStatus irqTimeNs).1
      else dev.irqStatus c := by
  unfold handleInterruptAt
  cases h : dev.base[coreSlot]? with
  | none =>
      dsimp only
      rw [UInt32.or_zero, ite_self]
  | some core =>
      dsimp only
      by_cases hc : coreSlot = c
      · subst hc
        rw [if_pos rfl, irqStatus_modifyCore_self h, irqStatus_eq h, RknpuCore.handleInterruptAt]
        split
        · rfl
        · rename_i hzero
          rw [Decidable.not_not.mp hzero, UInt32.or_zero]
      · rw [if_neg hc, irqStatus_modifyCore_of_ne hc]

theorem handleInterruptAt_status (h : coreSlot < dev.base.length) (intStatus : UInt32) (irqTimeNs : UInt64) :
    (dev.handleInterruptAt coreSlot intStatus irqTimeNs).1 = rknpuFuzzStatus intStatus := by
  rw [handleInterruptAt, List.getElem?_eq_getElem h]
  dsimp only [RknpuCore.handleInterruptAt]
  split <;> rfl

theorem length_handleInterruptAt (dev : RknpuDev) (coreSlot : Nat) (intStatus : UInt32) (irqTimeNs : UInt64) :
    (dev.handleInterruptAt coreSlot intStatus irqTimeNs).2.base.length = dev.base.length := by
  unfold handleInterruptAt
  split
  · rfl
  · exact length_modifyCore ..

/-- A harvest takes the whole status of a core, or finds it zero. -/
theorem takeCompletion_cases (dev : RknpuDev) (coreSlot : Nat) :
    (dev.irqStatus coreSlot = 0 ∧ dev.takeCompletion coreSlot = (none, dev)) ∨
    ∃ core, dev.irqStatus coreSlot = core.irqStatus ∧ core.irqStatus ≠ 0 ∧
      dev.takeCompletion coreSlot = (some core, dev.clearCompletionShadow coreSlot) := by
  unfold takeCompletion
  cases h : dev.base[coreSlot]? with
  | none => exact .inl ⟨by rw [irqStatus, h], rfl⟩
  | some core =>
      by_cases hzero : core.irqStatus = 0
      · exact .inl ⟨(irqStatus_eq h).trans hzero, if_pos hzero⟩
      · exact .inr ⟨core, irqStatus_eq h, hzero, if_neg hzero⟩

end RknpuDev

/-! ## Actions -/

inductive RknpuAction where
  | getHwVersion | getDrvVersion | getFreq | setFreq | getVolt | setVolt | actReset
  | getBwPriority | setBwPriority | getBwExpect | setBwExpect | getBwTw | setBwTw
  | actClrTotalRwAmount | getDtWrAmount | getDtRdAmount | getWtRdAmount | getTotalRwAmount
  | getIommuEn | setProcNice | powerOn | powerOff | getTotalSramSize | getFreeSramSize
  | getIommuDomainId | setIommuDomainId
deriving DecidableEq, Repr

/-- `TryFrom<u32>`: the opcodes are the positions in the enumeration. -/
def RknpuAction.tryFrom (value : UInt32) : Option RknpuAction :=
  ([.getHwVersion, .getDrvVersion, .getFreq, .setFreq, .getVolt, .setVolt, .actReset,
    .getBwPriority, .setBwPriority, .getBwExpect, .setBwExpect, .getBwTw, .setBwTw,
    .actClrTotalRwAmount, .getDtWrAmount, .getDtRdAmount, .getWtRdAmount, .getTotalRwAmount,
    .getIommuEn, .setProcNice, .powerOn, .powerOff, .getTotalSramSize, .getFreeSramSize,
    .getIommuDomainId, .setIommuDomainId] : List RknpuAction)[value.toNat]?

/-- `version(0, 9, 8)`. -/
def drvVersion : UInt32 := 0 * 10000 + 9 * 100 + 8

/-- The value that comes back, and the device. `ActClrTotalRwAmount` writes registers only. -/
def RknpuDev.action (dev : RknpuDev) (regs : Registers) (value : UInt32) :
    RknpuAction → Except RknpuError UInt32 × RknpuDev
  | .getHwVersion => (.ok (regs.version + (regs.versionNum &&& 0xffff)), dev)
  | .getDrvVersion => (.ok drvVersion, dev)
  | .getFreq | .setFreq | .getVolt | .setVolt => (.error .notSupported, dev)
  | .actReset => (.ok 0, dev.softReset)
  | .getBwPriority | .setBwPriority | .getBwExpect | .setBwExpect | .getBwTw | .setBwTw =>
      (.error .notSupported, dev)
  | .actClrTotalRwAmount => (.ok 0, dev)
  | .getDtWrAmount => (.ok (dev.rwAmount regs (·.offsetDtWr)), dev)
  | .getDtRdAmount => (.ok (dev.rwAmount regs (·.offsetDtRd)), dev)
  | .getWtRdAmount => (.ok (dev.rwAmount regs (·.offsetWtRd)), dev)
  | .getTotalRwAmount => (.ok (dev.getTotalRwAmount regs), dev)
  | .getIommuEn => (.ok (if dev.iommuEnabled then 1 else 0), dev)
  | .setProcNice => (.ok 0, dev)
  | .powerOn | .powerOff => (.error .notSupported, dev)
  | .getTotalSramSize | .getFreeSramSize => (.ok dev.data.nbufSize.toUInt32, dev)
  | .getIommuDomainId => (.ok dev.iommuDomainId.toUInt32, dev)
  | .setIommuDomainId =>
      let domainId := value.toInt32
      if 0 ≤ domainId ∧ domainId < 16 then (.ok 0, { dev with iommuDomainId := domainId })
      else (.error .invalidParameter, dev)

/-- Only a reset touches what the cores have published. -/
theorem RknpuDev.base_action (dev : RknpuDev) (regs : Registers) (value : UInt32) {action : RknpuAction}
    (h : action ≠ .actReset) : (dev.action regs value action).2.base = dev.base := by
  cases action with
  | actReset => exact absurd rfl h
  | setIommuDomainId =>
      dsimp only [RknpuDev.action]
      split <;> rfl
  | _ => rfl

end Rknpu.Device
