import Rknpu.Lib.Prog

/-!
# The eMMC host

A translation of `sdmmc/src/emmc/rockchip.rs` and of the setters in `mod.rs` that go through it, in the `pio` build. The
host is a state; register accesses, delays, the clock hook and the commands are calls. `send_command` only borrows the
host, so one call stands for it, answered with the response registers and the read buffer it leaves behind. A register
that is read for a log line only is not read here.
-/

namespace Rknpu.Emmc

/-! ## Registers -/

def emmcPresentState : UInt32 := 0x0024
def emmcHostCtrl1 : UInt32 := 0x0028
def emmcPowerCtrl : UInt32 := 0x0029
def emmcClockControl : UInt32 := 0x002C
def emmcHostCtrl2 : UInt32 := 0x003E
def emmcCapabilities2 : UInt32 := 0x0044
def emmcHostCntrlVer : UInt32 := 0x00FE
def dwcmshcHostCtrl3 : UInt32 := 0x508
def dwcmshcEmmcAtctrl : UInt32 := 0x540
def dwcmshcEmmcDllCtrl : UInt32 := 0x800
def dwcmshcEmmcDllRxclk : UInt32 := 0x804
def dwcmshcEmmcDllTxclk : UInt32 := 0x808
def dwcmshcEmmcDllStrbin : UInt32 := 0x80c
def decmshcEmmcDllCmdout : UInt32 := 0x810
def dwcmshcEmmcDllStatus0 : UInt32 := 0x840

/-! ## Fields -/

def emmcCmdInhibit : UInt32 := 0x00000001
def emmcDataInhibit : UInt32 := 0x00000002

def emmcCtrl4bitbus : UInt8 := 0x02
def emmcCtrlHispd : UInt8 := 0x04
def emmcCtrl8bitbus : UInt8 := 0x20

def emmcClockIntEn : UInt16 := 0x0001
def emmcClockIntStable : UInt16 := 0x0002
def emmcClockCardEn : UInt16 := 0x0004
def emmcProgClockMode : UInt16 := 0x0020
def emmcDividerShift : UInt16 := 8
def emmcDividerHiShift : UInt16 := 6

def emmcSpec300 : UInt16 := 2
def emmcClockMulMask : UInt32 := 0x00FF0000
def emmcClockMulShift : UInt32 := 16

def emmcPowerOn : UInt8 := 0x01
def emmcPower180 : UInt8 := 0x0A
def emmcPower300 : UInt8 := 0x0C
def emmcPower330 : UInt8 := 0x0E

def mmcVdd165195Shift : UInt32 := 7
def mmcVdd165195 : UInt32 := 0x00000080
def mmcVdd2930 : UInt32 := 0x00020000
def mmcVdd3031 : UInt32 := 0x00040000
def mmcVdd3233 : UInt32 := 0x00100000
def mmcVdd3334 : UInt32 := 0x00200000

def dwcmshcEmmcDllCtrlReset : UInt32 := (1 : UInt32) <<< 1
def dwcmshcEmmcDllStart : UInt32 := (1 : UInt32) <<< 0
def dwcmshcEmmcDllStartPoint : UInt32 := 16
def dwcmshcEmmcDllStartDefault : UInt32 := 5
def dwcmshcEmmcDllIncValue : UInt32 := 2
def dwcmshcEmmcDllInc : UInt32 := 8
def dwcmshcEmmcDllBypass : UInt32 := (1 : UInt32) <<< 24
def dwcmshcEmmcDllDlyena : UInt32 := (1 : UInt32) <<< 27
def dwcmshcEmmcDllLocked : UInt32 := (1 : UInt32) <<< 8
def dwcmshcEmmcDllTimeout : UInt32 := (1 : UInt32) <<< 9
def dllStrbinDelayNumOffset : UInt32 := 16
def dllStrbinTapnumFromSw : UInt32 := (1 : UInt32) <<< 24
def dllStrbinDelayNumSel : UInt32 := (1 : UInt32) <<< 26
def dllTxclkTapnumFromSw : UInt32 := (1 : UInt32) <<< 24
def dllTxclkNoInverter : UInt32 := (1 : UInt32) <<< 29
def dllTapValueSel : UInt32 := (1 : UInt32) <<< 25
def dllTapValueOffset : UInt32 := 8
def dllRxclkNoInverter : UInt32 := (1 : UInt32) <<< 29
def dllRxclkOriGate : UInt32 := (1 : UInt32) <<< 31
def dllCmdoutTapnumFromSw : UInt32 := (1 : UInt32) <<< 24
def dllCmdoutSrcClkNeg : UInt32 := (1 : UInt32) <<< 28
def dllCmdoutBothClkEdge : UInt32 := (1 : UInt32) <<< 30

def rkDllCmdOut : UInt32 := (1 : UInt32) <<< 1
def rkRxclkNoInverter : UInt32 := (1 : UInt32) <<< 2
def rkTapValueSel : UInt32 := (1 : UInt32) <<< 3

def mmcTimingLegacy : UInt32 := 0
def mmcTimingMmcHs : UInt32 := 1
def mmcTimingSdHs : UInt32 := 2
def mmcTimingUhsSdr12 : UInt32 := 3
def mmcTimingUhsSdr25 : UInt32 := 4
def mmcTimingUhsSdr50 : UInt32 := 5
def mmcTimingUhsSdr104 : UInt32 := 6
def mmcTimingUhsDdr50 : UInt32 := 7
def mmcTimingMmcDdr52 : UInt32 := 8
def mmcTimingMmcHs200 : UInt32 := 9
def mmcTimingMmcHs400 : UInt32 := 10
def mmcTimingMmcHs400es : UInt32 := 11

def mmcCtrlUhsMask : UInt16 := 0x0007
def mmcCtrlUhsSdr12 : UInt16 := 0x0000
def mmcCtrlUhsSdr25 : UInt16 := 0x0001
def mmcCtrlUhsSdr50 : UInt16 := 0x0002
def mmcCtrlUhsSdr104 : UInt16 := 0x0003
def mmcCtrlUhsDdr50 : UInt16 := 0x0004
def mmcCtrlHs400 : UInt16 := 0x0005
def mmcCtrlVdd180 : UInt16 := 0x0008
def mmcCtrlDrvTypeA : UInt16 := 0x0010

def sdhciQuirkNoHispdBit : UInt32 := (1 : UInt32) <<< 3
def sdhciQuirkUseWide8 : UInt32 := (1 : UInt32) <<< 8

def mmcVersionMmc : UInt32 := (1 : UInt32) <<< 30

def makeSdmmcVersion (a b c : UInt32) : UInt32 := a <<< 16 ||| b <<< 8 ||| c

def makeMmcVersion (a b c : UInt32) : UInt32 := mmcVersionMmc ||| makeSdmmcVersion a b c

def mmcVersionUnknown : UInt32 := makeMmcVersion 0 0 0

/-! ## State -/

inductive CardType where
  | unknown
  | mmc
  | sdV1
  | sdV2
  | sdHc
  | mmcHc
deriving DecidableEq, Repr

structure EMmcCard where
  cardType : CardType
  rca : UInt32 := 0
  ocr : UInt32 := 0
  cid : Vector UInt32 4 := #v[0, 0, 0, 0]
  csd : Vector UInt32 4 := #v[0, 0, 0, 0]
  state : UInt32 := 0
  initialized : Bool := false
  highCapacity : Bool := false
  version : UInt32 := mmcVersionUnknown
  dsr : UInt32 := 0xffffffff
  timing : UInt32 := mmcTimingLegacy
  clock : UInt32 := 0
  busWidth : UInt8 := 0
  partSupport : UInt8 := 0
  partAttr : UInt8 := 0
  wrRelSet : UInt8 := 0
  partConfig : UInt8 := 0
  dsrImp : UInt32 := 0
  cardCaps : UInt32 := 0
  readBlLen : UInt32 := 0
  writeBlLen : UInt32 := 0
  eraseGrpSize : UInt32 := 0
  hcWpGrpSize : UInt64 := 0
  capacity : UInt64 := 0
  capacityUser : UInt64 := 0
  capacityBoot : UInt64 := 0
  capacityRpmb : UInt64 := 0
  capacityGp : Vector UInt64 4 := #v[0, 0, 0, 0]
  enhUserSize : UInt64 := 0
  enhUserStart : UInt64 := 0
  rawDriverStrength : UInt8 := 0
deriving DecidableEq, Repr

/-- `EMmcCard::init` -/
def EMmcCard.init (cardType : CardType) : EMmcCard := { cardType }

structure EMmcHost where
  card : Option EMmcCard
  voltages : UInt32
  quirks : UInt32
  hostCaps : UInt32
deriving DecidableEq, Repr

/-! ## Calls -/

structure EMmcCommand where
  opcode : UInt8
  arg : UInt32
  respType : UInt32
  dataPresent : Bool := false
  dataDirRead : Bool := true
  blockSize : UInt16 := 0
  blockCount : UInt16 := 0
deriving DecidableEq, Repr

def EMmcCommand.withData (cmd : EMmcCommand) (blockSize blockCount : UInt16) (isRead : Bool) : EMmcCommand :=
  { cmd with dataPresent := true, dataDirRead := isRead, blockSize, blockCount }

structure SdResponse where
  raw : Vector UInt32 4
deriving DecidableEq, Repr

/-- The 512 bytes of a block. -/
abbrev Block := Fin 512 → UInt8

/-- What a command leaves behind: the response registers and, if it reads, the buffer. -/
structure Transfer where
  response : SdResponse
  data : Block

inductive SdError where
  | timeout
  | crc
  | endBit
  | index
  | dataTimeout
  | dataCrc
  | dataEndBit
  | busPower
  | acmd12Error
  | admaError
  | invalidResponse
  | noCard
  | unsupportedCard
  | ioError
  | commandError
  | transferError
  | invalidResponseType
  | currentLimit
  | dataError
  | tuningFailed
  | voltageSwitchFailed
  | badMessage
  | invalidArgument
  | bufferOverflow
  | memoryError
  | busWidth
  | cardError (status : UInt32) (desc : String)
deriving DecidableEq, Repr

inductive ClkError where
  | invalidClockRate
  | registerOperationFailed
  | invalidPeripheralId
  | resetTimeout
  | notInitialized
deriving DecidableEq, Repr

inductive HostCall where
  | readReg (offset : UInt32)
  | readReg16 (offset : UInt32)
  | readReg8 (offset : UInt32)
  | writeReg (offset : UInt32) (value : UInt32)
  | writeReg16 (offset : UInt32) (value : UInt16)
  | writeReg8 (offset : UInt32) (value : UInt8)
  | delayUs (us : UInt64)
  | emmcSetClk (rate : UInt64)
  | sendCommand (cmd : EMmcCommand)
deriving DecidableEq, Repr

abbrev HostCall.Answer : HostCall → Type
  | readReg _ => UInt32
  | readReg16 _ => UInt16
  | readReg8 _ => UInt8
  | writeReg _ _ | writeReg16 _ _ | writeReg8 _ _ | delayUs _ => Unit
  | emmcSetClk _ => Except ClkError UInt64
  | sendCommand _ => Except SdError Transfer

inductive Panic where
  | noCard
  | unwrapClk (err : ClkError)
  | unwrapSd (err : SdError)
  | underflow
  | divideByZero
  | indexOutOfBounds
  | unknownRevision
  | todo
deriving DecidableEq, Repr

inductive Stop where
  | err (err : SdError)
  | panic (cause : Panic)
deriving DecidableEq, Repr

abbrev HostM := StateT EMmcHost (Prog HostCall HostCall.Answer Stop)

def ask (call : HostCall) : HostM call.Answer := StateT.lift (Prog.ask call)

def readReg (offset : UInt32) : HostM UInt32 := ask (.readReg offset)
def readReg16 (offset : UInt32) : HostM UInt16 := ask (.readReg16 offset)
def readReg8 (offset : UInt32) : HostM UInt8 := ask (.readReg8 offset)
def writeReg (offset value : UInt32) : HostM Unit := ask (.writeReg offset value)
def writeReg16 (offset : UInt32) (value : UInt16) : HostM Unit := ask (.writeReg16 offset value)
def writeReg8 (offset : UInt32) (value : UInt8) : HostM Unit := ask (.writeReg8 offset value)
def delayUs (us : UInt64) : HostM Unit := ask (.delayUs us)

/-- The unwrapped answer of the clock hook. -/
def emmcSetClk (rate : UInt64) : HostM UInt64 := do
  match ← ask (.emmcSetClk rate) with
  | .ok rate => return rate
  | .error err => throw (.panic (.unwrapClk err))

def sendCommand (cmd : EMmcCommand) : HostM Transfer := do
  match ← ask (.sendCommand cmd) with
  | .ok transfer => return transfer
  | .error err => throw (.err err)

/-- `self.card.as_ref().unwrap()` -/
def getCard : HostM EMmcCard := do
  match (← get).card with
  | some card => return card
  | none => throw (.panic .noCard)

/-- A write through `self.card.as_mut().unwrap()`. -/
def modifyCard (f : EMmcCard → EMmcCard) : HostM Unit := do
  let card ← getCard
  modify fun host => { host with card := some (f card) }

/-- `Result::unwrap`: an error becomes a panic. -/
def unwrap {α : Type} (m : HostM α) : HostM α := fun host =>
  (m.run host).mapError fun
    | .err err => .panic (.unwrapSd err)
    | .panic cause => .panic cause

/-- A result that the caller looks at. None of the functions used this way writes the host before it fails. -/
def result {α : Type} (m : HostM α) : HostM (Except SdError α) :=
  tryCatch (do return .ok (← m)) fun
    | .err err => return .error err
    | .panic cause => throw (.panic cause)

/-! ## Clock -/

structure EMmcChipConfig where
  flags : UInt32
  hs200TxTap : UInt8
  hs400TxTap : UInt8
  hs400CmdTap : UInt8
  hs400StrbinTap : UInt8

def EMmcChipConfig.rk3568Config : EMmcChipConfig where
  flags := rkRxclkNoInverter
  hs200TxTap := 16
  hs400TxTap := 8
  hs400CmdTap := 8
  hs400StrbinTap := 3

/-- The first divider that brings the input clock down to the request. -/
def firstDivider (dividers : List Nat) (inputClk freq : UInt32) : Option UInt32 :=
  (dividers.map UInt32.ofNat).find? fun i => decide (inputClk / i ≤ freq)

/-- `for i in 1..=1024` -/
def programmableDiv (inputClk freq : UInt32) : UInt32 :=
  (firstDivider (List.range' 1 1024) inputClk freq).getD 0

/-- The input clock itself, or `for i in (2..=2046).step_by(2)`. -/
def evenDiv (inputClk freq : UInt32) : UInt32 :=
  if inputClk ≤ freq then 1 else (firstDivider (List.range' 2 1023 2) inputClk freq).getD 0

/-- `while i < 256 && (input_clk / i) > freq` -/
def powerDiv (inputClk freq : UInt32) : UInt32 :=
  (firstDivider [1, 2, 4, 8, 16, 32, 64, 128] inputClk freq).getD 256

/-- A subtraction with overflow checks. -/
def checkedSub (a b : UInt32) : HostM UInt32 :=
  if b ≤ a then return a - b else throw (.panic .underflow)

/-- `timeout` more polls follow a failed one. -/
def awaitInhibit : Nat → HostM Unit
  | 0 => do
      if (← readReg emmcPresentState) &&& (emmcCmdInhibit ||| emmcDataInhibit) ≠ 0 then throw (.err .timeout)
  | timeout + 1 => do
      if (← readReg emmcPresentState) &&& (emmcCmdInhibit ||| emmcDataInhibit) ≠ 0 then
        delayUs 1000
        awaitInhibit timeout

/-- The last of `timeout` polls is followed by the error. -/
def awaitStable : Nat → HostM Unit
  | 0 => throw (.err .timeout)
  | timeout + 1 => do
      if (← readReg16 emmcClockControl) &&& emmcClockIntStable = 0 then
        delayUs 1000
        awaitStable timeout

def enableCardClock (clk : UInt16) : HostM Unit := do
  let clk := (clk ||| emmcClockIntEn) &&& ~~~emmcClockIntStable
  writeReg16 emmcClockControl clk
  awaitStable 20
  writeReg16 emmcClockControl (clk ||| emmcClockCardEn)

/-- The divider and the mode bits for the version and the capabilities of the controller. -/
def chooseDivider (inputClk freq : UInt32) : HostM (UInt32 × UInt16) := do
  let sdhciVersion ← readReg16 emmcHostCntrlVer
  if sdhciVersion &&& 0xFF ≥ emmcSpec300 then
    let caps2 ← readReg emmcCapabilities2
    let clkMul := (caps2 &&& emmcClockMulMask) >>> emmcClockMulShift
    if clkMul ≠ 0 then
      let div ← checkedSub (programmableDiv inputClk freq) 1
      return (div, emmcProgClockMode)
    else
      return (evenDiv inputClk freq >>> 1, 0)
  else
    return (powerDiv inputClk freq >>> 1, 0)

/-- The clock word of a divider: eight bits, and two more above the mode. -/
def dividerWord (div : UInt32) (mode : UInt16) : UInt16 :=
  mode ||| (div.toUInt16 &&& 0xFF) <<< emmcDividerShift ||| ((div.toUInt16 &&& 0x300) >>> 8) <<< emmcDividerHiShift

def rockchipEmmcSetClock (freq : UInt32) : HostM Unit := do
  awaitInhibit 20
  writeReg16 emmcClockControl 0x0000
  if freq = 0 then
    return ()
  else
    let inputClk ← emmcSetClk freq.toUInt64
    let (div, mode) ← chooseDivider inputClk.toUInt32 freq
    let clk := dividerWord div mode
    writeReg16 emmcClockControl clk
    enableCardClock clk

def dllLockWoTmout (x : UInt32) : Bool :=
  x &&& dwcmshcEmmcDllLocked = dwcmshcEmmcDllLocked ∧ x &&& dwcmshcEmmcDllTimeout = 0

def awaitDll : Nat → HostM Unit
  | 0 => throw (.err .timeout)
  | timeout + 1 => do
      if dllLockWoTmout (← readReg dwcmshcEmmcDllStatus0) then
        return ()
      else
        delayUs 1000
        awaitDll timeout

/-- The bits that `RK_TAP_VALUE_SEL` adds to a delay line. -/
def EMmcChipConfig.tapValue (data : EMmcChipConfig) (dllLockValue : UInt32) : UInt32 :=
  if data.flags &&& rkTapValueSel ≠ 0 then dllTapValueSel ||| dllLockValue <<< dllTapValueOffset else 0

/-- The tap of the transmit clock. In the HS400 modes the command line may be configured first. -/
def selectTxTap (data : EMmcChipConfig) (timing tapValue : UInt32) : HostM UInt8 := do
  if data.flags &&& rkDllCmdOut ≠ 0 ∧ (timing = mmcTimingMmcHs400 ∨ timing = mmcTimingMmcHs400es) then
    writeReg decmshcEmmcDllCmdout
      (dllCmdoutSrcClkNeg ||| dllCmdoutBothClkEdge ||| dwcmshcEmmcDllDlyena ||| data.hs400CmdTap.toUInt32 |||
        dllCmdoutTapnumFromSw ||| tapValue)
    return data.hs400TxTap
  else
    return data.hs200TxTap

/-- The branch of `dwcmshc_sdhci_emmc_set_clock` from 100 MHz on. -/
def enableDll (data : EMmcChipConfig) (timing : UInt32) : HostM Unit := do
  writeReg dwcmshcEmmcDllCtrl dwcmshcEmmcDllCtrlReset
  delayUs 1000
  writeReg dwcmshcEmmcDllCtrl 0
  writeReg dwcmshcEmmcAtctrl ((0x1 : UInt32) <<< 16 ||| (0x2 : UInt32) <<< 17 ||| (0x3 : UInt32) <<< 19)
  writeReg dwcmshcEmmcDllCtrl
    (dwcmshcEmmcDllStartDefault <<< dwcmshcEmmcDllStartPoint |||
      dwcmshcEmmcDllIncValue <<< dwcmshcEmmcDllInc ||| dwcmshcEmmcDllStart)
  awaitDll 500
  let status ← readReg dwcmshcEmmcDllStatus0
  let dllLockValue := ((status &&& 0xFF) * 2) &&& 0xFF
  let tapValue := data.tapValue dllLockValue
  writeReg dwcmshcEmmcDllRxclk
    (dwcmshcEmmcDllDlyena ||| dllRxclkOriGate |||
      (if data.flags &&& rkRxclkNoInverter ≠ 0 then dllRxclkNoInverter else 0) ||| tapValue)
  let txclkTapnum ← selectTxTap data timing tapValue
  writeReg dwcmshcEmmcDllTxclk
    (dwcmshcEmmcDllDlyena ||| dllTxclkTapnumFromSw ||| dllTxclkNoInverter ||| txclkTapnum.toUInt32 ||| tapValue)
  writeReg dwcmshcEmmcDllStrbin
    (dwcmshcEmmcDllDlyena ||| data.hs400StrbinTap.toUInt32 ||| dllStrbinTapnumFromSw ||| tapValue)

/-- Its branch below 100 MHz. -/
def bypassDll : HostM Unit := do
  writeReg dwcmshcEmmcDllCtrl 0
  let extra ← readReg dwcmshcHostCtrl3
  writeReg dwcmshcHostCtrl3 (extra &&& ~~~0x1)
  writeReg dwcmshcEmmcDllCtrl (dwcmshcEmmcDllBypass ||| dwcmshcEmmcDllStart)
  writeReg dwcmshcEmmcDllRxclk dllRxclkOriGate
  writeReg dwcmshcEmmcDllTxclk 0
  writeReg decmshcEmmcDllCmdout 0
  writeReg dwcmshcEmmcDllStrbin
    (dwcmshcEmmcDllDlyena ||| dllStrbinDelayNumSel ||| (16 : UInt32) <<< dllStrbinDelayNumOffset)

def dwcmshcSdhciEmmcSetClock (freq : UInt32) : HostM Unit := do
  let timing := (← getCard).timing
  rockchipEmmcSetClock freq
  writeReg16 emmcClockControl 0
  if freq ≥ 100000000 then enableDll .rk3568Config timing else bypassDll
  enableCardClock 0

/-! ## Bus -/

def sdhciSetPower (power : UInt32) : HostM Unit := do
  let vdd := (1 : UInt32) <<< power
  let pwr :=
    if power = 0xFFFF then 0
    else if vdd = mmcVdd165195 then emmcPower180
    else if vdd = mmcVdd2930 ∨ vdd = mmcVdd3031 then emmcPower300
    else if vdd = mmcVdd3233 ∨ vdd = mmcVdd3334 then emmcPower330
    else 0
  if pwr = 0 then
    writeReg8 emmcPowerCtrl 0
  else
    writeReg8 emmcPowerCtrl (pwr ||| emmcPowerOn)
    delayUs 10000

/-- The mode bits of a timing. -/
def uhsMode (timing : UInt32) : UInt16 :=
  if timing = mmcTimingMmcHs200 ∨ timing = mmcTimingUhsSdr104 then mmcCtrlUhsSdr104 ||| mmcCtrlDrvTypeA
  else if timing = mmcTimingUhsSdr12 then mmcCtrlUhsSdr12
  else if timing = mmcTimingUhsSdr25 then mmcCtrlUhsSdr25
  else if timing = mmcTimingUhsSdr50 ∨ timing = mmcTimingMmcHs then mmcCtrlUhsSdr50
  else if timing = mmcTimingUhsDdr50 ∨ timing = mmcTimingMmcDdr52 then mmcCtrlUhsDdr50
  else if timing = mmcTimingMmcHs400 ∨ timing = mmcTimingMmcHs400es then mmcCtrlHs400 ||| mmcCtrlDrvTypeA
  else 0

/-- A timing that runs the bus at 1.8 V. -/
def LowVoltage (timing : UInt32) : Prop :=
  timing ≠ mmcTimingLegacy ∧ timing ≠ mmcTimingMmcHs ∧ timing ≠ mmcTimingSdHs

instance (timing : UInt32) : Decidable (LowVoltage timing) := inferInstanceAs (Decidable (_ ∧ _))

def sdhciSetUhsSignaling : HostM Unit := do
  let timing := (← getCard).timing
  let ctrl2 ← readReg16 emmcHostCtrl2
  writeReg16 emmcHostCtrl2
    (ctrl2 &&& ~~~mmcCtrlUhsMask ||| (if LowVoltage timing then mmcCtrlVdd180 else 0) ||| uhsMode timing)

def sdhciGetVersion : HostM UInt16 := do
  return (← readReg16 emmcHostCntrlVer) &&& 0xFF

/-- The control byte for a bus width. -/
def widthControl (wide8 : Prop) [Decidable wide8] (busWidth ctrl : UInt8) : UInt8 :=
  if busWidth = 8 then
    let ctrl := ctrl &&& ~~~emmcCtrl4bitbus
    if wide8 then ctrl ||| emmcCtrl8bitbus else ctrl
  else
    let ctrl := if wide8 then ctrl &&& ~~~emmcCtrl8bitbus else ctrl
    if busWidth = 4 then ctrl ||| emmcCtrl4bitbus else ctrl &&& ~~~emmcCtrl4bitbus

def sdhciSetIos : HostM Unit := do
  let card ← getCard
  unwrap (dwcmshcSdhciEmmcSetClock card.clock)
  let quirks := (← get).quirks
  let ctrl ← readReg8 emmcHostCtrl1
  let version ← sdhciGetVersion
  let ctrl := widthControl (version ≥ emmcSpec300 ∨ quirks &&& sdhciQuirkUseWide8 ≠ 0) card.busWidth ctrl
  writeReg8 emmcHostCtrl1
    (if card.timing ≠ mmcTimingLegacy ∧ quirks &&& sdhciQuirkNoHispdBit = 0 then ctrl ||| emmcCtrlHispd
      else ctrl &&& ~~~emmcCtrlHispd)
  if LowVoltage card.timing then unwrap (sdhciSetPower mmcVdd165195Shift)
  sdhciSetUhsSignaling

def mmcSetBusWidth (width : UInt8) : HostM Unit := do
  modifyCard fun card => { card with busWidth := width }
  sdhciSetIos

def mmcSetTiming (timing : UInt32) : HostM Unit := do
  modifyCard fun card => { card with timing }
  sdhciSetIos

def mmcSetClock (clk : UInt32) : HostM Unit := do
  modifyCard fun card => { card with clock := clk }
  sdhciSetIos

end Rknpu.Emmc
