import Rknpu.Emmc.Host

/-!
# Card initialisation

A translation of `init_card` and of what it calls in `sdmmc/src/emmc/mod.rs` and `cmd.rs`. Fields of the CSD are bit
fields of its four words, fields of the EXT_CSD are bytes.
-/

namespace Rknpu.Emmc

/-! ## Constants -/

def Opcode.mmcGoIdleState : UInt8 := 0
def Opcode.mmcSendOpCond : UInt8 := 1
def Opcode.mmcAllSendCid : UInt8 := 2
def Opcode.mmcSetRelativeAddr : UInt8 := 3
def Opcode.mmcSetDsr : UInt8 := 4
def Opcode.mmcSwitch : UInt8 := 6
def Opcode.mmcSelectCard : UInt8 := 7
def Opcode.mmcSendExtCsd : UInt8 := 8
def Opcode.mmcSendCsd : UInt8 := 9
def Opcode.mmcSendStatus : UInt8 := 13
def Opcode.mmcSendTuningBlockHs200 : UInt8 := 21

def mmcRspPresent : UInt32 := (1 : UInt32) <<< 0
def mmcRsp136 : UInt32 := (1 : UInt32) <<< 1
def mmcRspCrc : UInt32 := (1 : UInt32) <<< 2
def mmcRspBusy : UInt32 := (1 : UInt32) <<< 3
def mmcRspOpcode : UInt32 := (1 : UInt32) <<< 4
def mmcRspNone : UInt32 := 0
def mmcRspR1 : UInt32 := mmcRspPresent ||| mmcRspCrc ||| mmcRspOpcode
def mmcRspR1b : UInt32 := mmcRspPresent ||| mmcRspCrc ||| mmcRspOpcode ||| mmcRspBusy
def mmcRspR2 : UInt32 := mmcRspPresent ||| mmcRsp136 ||| mmcRspCrc
def mmcRspR3 : UInt32 := mmcRspPresent

def ocrBusy : UInt32 := 0x80000000
def ocrHcs : UInt32 := 0x40000000
def ocrVoltageMask : UInt32 := 0x007FFF80
def ocrAccessMode : UInt32 := 0x60000000

def mmcStateHighcapacity : UInt32 := (1 : UInt32) <<< 4
def mmcStatusSwitchError : UInt32 := (1 : UInt32) <<< 7
def mmcStatusCurrState : UInt32 := (0xf : UInt32) <<< 9
def mmcStatePrg : UInt32 := (7 : UInt32) <<< 9
def mmcSwitchModeWriteByte : UInt32 := 0x03

def emmcBlockSize : UInt32 := 0x0004
def emmcXferMode : UInt32 := 0x000C
def emmcData0Lvl : UInt32 := (1 : UInt32) <<< 20
def emmcTrnsRead : UInt16 := 0x10
def mmcCtrlExecTuning : UInt16 := 0x0040
def mmcCtrlTunedClk : UInt16 := 0x0080

def mmcMaxBlockLen : UInt32 := 512
def mmcpartNoavailable : UInt8 := 0xff
def partSupport : UInt32 := 0x1
def enhncdSupport : UInt32 := 0x2
def partEnhAttrib : UInt32 := 0x1f

def mmcHigh26MaxDtr : UInt32 := 26000000
def mmcHigh52MaxDtr : UInt32 := 52000000
def mmcHs200MaxDtr : UInt32 := 200000000

def mmcModeHs : UInt32 := (1 : UInt32) <<< 0
def mmcMode4bit : UInt32 := (1 : UInt32) <<< 2
def mmcMode8bit : UInt32 := (1 : UInt32) <<< 3
def mmcModeDdr52mhz : UInt32 := (1 : UInt32) <<< 5
def mmcModeHs200 : UInt32 := (1 : UInt32) <<< 6
def mmcModeHs400 : UInt32 := (1 : UInt32) <<< 7
def mmcModeHs400es : UInt32 := (1 : UInt32) <<< 8

def mmcVersion12 : UInt32 := makeMmcVersion 1 2 0
def mmcVersion14 : UInt32 := makeMmcVersion 1 4 0
def mmcVersion22 : UInt32 := makeMmcVersion 2 2 0
def mmcVersion3 : UInt32 := makeMmcVersion 3 0 0
def mmcVersion4 : UInt32 := makeMmcVersion 4 0 0
def mmcVersion41 : UInt32 := makeMmcVersion 4 1 0
def mmcVersion42 : UInt32 := makeMmcVersion 4 2 0
def mmcVersion43 : UInt32 := makeMmcVersion 4 3 0
def mmcVersion441 : UInt32 := makeMmcVersion 4 4 1
def mmcVersion45 : UInt32 := makeMmcVersion 4 5 0
def mmcVersion50 : UInt32 := makeMmcVersion 5 0 0
def mmcVersion51 : UInt32 := makeMmcVersion 5 1 0

instance neZeroBlockSize : NeZero 512 := ⟨by decide⟩

def extCsdEnhStartAddr : Fin 512 := 136
def extCsdEnhSizeMult : Fin 512 := 140
def extCsdGpSizeMult : Fin 512 := 143
def extCsdPartitionSetting : Fin 512 := 155
def extCsdPartitionsAttribute : Fin 512 := 156
def extCsdPartitioningSupport : Fin 512 := 160
def extCsdWrRelSet : Fin 512 := 167
def extCsdRpmbMult : Fin 512 := 168
def extCsdEraseGroupDef : Fin 512 := 175
def extCsdPartConf : Fin 512 := 179
def extCsdBusWidth : Fin 512 := 183
def extCsdStrobeSupport : Fin 512 := 184
def extCsdHsTiming : Fin 512 := 185
def extCsdRev : Fin 512 := 192
def extCsdCardType : Fin 512 := 196
def extCsdDriverStrength : Fin 512 := 197
def extCsdSecCnt : Fin 512 := 212
def extCsdHcWpGrpSize : Fin 512 := 221
def extCsdHcEraseGrpSize : Fin 512 := 224
def extCsdBootMult : Fin 512 := 226

def extCsdPartitionSettingCompleted : UInt32 := (1 : UInt32) <<< 0
def extCsdTimingHs : UInt8 := 1
def extCsdTimingHs200 : UInt8 := 2
def extCsdBusWidth4 : UInt8 := 1
def extCsdBusWidth8 : UInt8 := 2
def mmcBusWidth4bit : UInt8 := 4
def mmcBusWidth8bit : UInt8 := 8

def extCsdCardType26 : UInt16 := (1 : UInt16) <<< 0
def extCsdCardType52 : UInt16 := (1 : UInt16) <<< 1
def extCsdCardTypeHs : UInt16 := extCsdCardType26 ||| extCsdCardType52
def extCsdCardTypeDdr18v : UInt16 := (1 : UInt16) <<< 2
def extCsdCardTypeDdr12v : UInt16 := (1 : UInt16) <<< 3
def extCsdCardTypeDdr52 : UInt16 := extCsdCardTypeDdr18v ||| extCsdCardTypeDdr12v
def extCsdCardTypeHs20018v : UInt16 := (1 : UInt16) <<< 4
def extCsdCardTypeHs20012v : UInt16 := (1 : UInt16) <<< 5
def extCsdCardTypeHs200 : UInt16 := extCsdCardTypeHs20018v ||| extCsdCardTypeHs20012v
def extCsdCardTypeHs40018v : UInt16 := (1 : UInt16) <<< 6
def extCsdCardTypeHs40012v : UInt16 := (1 : UInt16) <<< 7
def extCsdCardTypeHs400 : UInt16 := extCsdCardTypeHs40018v ||| extCsdCardTypeHs40012v
def extCsdCardTypeHs400es : UInt16 := (1 : UInt16) <<< 8

def fbase : List Nat := [10000, 100000, 1000000, 10000000]

/-! ## Commands -/

def SdResponse.asR1 (response : SdResponse) : UInt32 := response.raw[0]

/-- The registers hold bits 8 to 127 of the answer. -/
def SdResponse.asR2 (response : SdResponse) : Vector UInt32 4 :=
  #v[response.raw[3] <<< 8 ||| response.raw[2] >>> 24, response.raw[2] <<< 8 ||| response.raw[1] >>> 24,
    response.raw[1] <<< 8 ||| response.raw[0] >>> 24, response.raw[0] <<< 8]

def SdResponse.asR3 (response : SdResponse) : UInt32 := response.raw[0]

def mmcGoIdle : HostM Unit := do
  let _ ← sendCommand { opcode := Opcode.mmcGoIdleState, arg := 0, respType := mmcRspNone }
  delayUs 10000

/-- What a ready card's answer is recorded as. -/
def EMmcCard.ready (card : EMmcCard) (resp : UInt32) : EMmcCard :=
  if resp &&& ocrHcs ≠ 0 then { card with cardType := .mmcHc, state := card.state ||| mmcStateHighcapacity } else card

/-- `while retry > 0 && !ready` -/
def awaitReady (cmdArg : UInt32) : Nat → HostM UInt32
  | 0 => throw (.err .unsupportedCard)
  | retry + 1 => do
      let transfer ← sendCommand { opcode := Opcode.mmcSendOpCond, arg := cmdArg, respType := mmcRspR3 }
      let resp := transfer.response.asR3
      modifyCard fun card => { card with ocr := resp }
      if resp &&& ocrBusy ≠ 0 then
        modifyCard (·.ready resp)
        return resp
      else
        delayUs 1000
        awaitReady cmdArg retry

def mmcSendOpCond (ocr : UInt32) (retry : Nat) : HostM UInt32 := do
  let transfer ← sendCommand { opcode := Opcode.mmcSendOpCond, arg := ocr, respType := mmcRspR3 }
  delayUs 10000
  let cardOcr := transfer.response.asR3
  let voltages := (← get).voltages
  let cmdArg := ocrHcs ||| (voltages &&& (cardOcr &&& ocrVoltageMask)) ||| (cardOcr &&& ocrAccessMode)
  let cardOcr ← awaitReady cmdArg retry
  delayUs 1000
  return cardOcr

def mmcAllSendCid : HostM Unit := do
  let transfer ← sendCommand { opcode := Opcode.mmcAllSendCid, arg := 0, respType := mmcRspR2 }
  modifyCard fun card => { card with cid := transfer.response.asR2 }

def mmcSetRelativeAddr : HostM Unit := do
  let rca := (← getCard).rca
  let _ ← sendCommand { opcode := Opcode.mmcSetRelativeAddr, arg := rca <<< 16, respType := mmcRspR1 }

def mmcSendCsd : HostM (Vector UInt32 4) := do
  let rca := (← getCard).rca
  let transfer ← sendCommand { opcode := Opcode.mmcSendCsd, arg := rca <<< 16, respType := mmcRspR2 }
  modifyCard fun card => { card with csd := transfer.response.asR2 }
  return transfer.response.asR2

def mmcSendExtCsd : HostM Block := do
  let transfer ← sendCommand
    (EMmcCommand.withData { opcode := Opcode.mmcSendExtCsd, arg := 0, respType := mmcRspR1 } 512 1 true)
  return transfer.data

/-- Whether the card is busy, by its status or by the data line. -/
def pollBusy (sendStatus : Bool) : HostM Bool := do
  if sendStatus then
    let rca := (← getCard).rca
    let transfer ← sendCommand { opcode := Opcode.mmcSendStatus, arg := rca <<< 16, respType := mmcRspR1 }
    let response := transfer.response.asR1
    if response &&& mmcStatusSwitchError ≠ 0 then throw (.err .badMessage)
    else return response &&& mmcStatusCurrState = mmcStatePrg
  else
    let presentState ← readReg emmcPresentState
    return presentState &&& emmcData0Lvl = 0

def mmcPollForBusy (sendStatus : Bool) : Nat → HostM Unit
  | 0 => do
      if ← pollBusy sendStatus then throw (.err .timeout)
      else if sendStatus then return ()
      else delayUs 1000
  | timeout + 1 => do
      if ← pollBusy sendStatus then
        delayUs 1000
        mmcPollForBusy sendStatus timeout
      else if sendStatus then return ()
      else delayUs 1000

/-- The command is sent up to `retries` times. -/
def switchAttempts (cmd : EMmcCommand) (sendStatus : Bool) : Nat → HostM Unit
  | 0 => throw (.err .timeout)
  | retries + 1 => do
      match ← result (sendCommand cmd) with
      | .ok _ => mmcPollForBusy sendStatus 1000
      | .error _ => switchAttempts cmd sendStatus retries

def mmcSwitch (index : Fin 512) (value : UInt8) (sendStatus : Bool) : HostM Unit :=
  switchAttempts
    { opcode := Opcode.mmcSwitch
      arg := mmcSwitchModeWriteByte <<< 24 ||| UInt32.ofNat index <<< 16 ||| value.toUInt32 <<< 8
      respType := mmcRspR1b }
    sendStatus 3

def mmcSelectHs : HostM Unit := do
  mmcSwitch extCsdHsTiming extCsdTimingHs true
  mmcSetTiming mmcTimingMmcHs

/-! ## Speed -/

/-- The fields that two readings of the EXT_CSD must share for the bus width to stand. -/
def sameExtCsd (extCsd testCsd : Block) : Bool :=
  [extCsdPartitioningSupport, extCsdHcWpGrpSize, extCsdRev, extCsdHcEraseGrpSize, extCsdSecCnt, extCsdSecCnt + 1,
    extCsdSecCnt + 2, extCsdSecCnt + 3].all fun i => extCsd i == testCsd i

/-- The widths are tried in order. -/
def tryBusWidths (extCsd : Block) : List (UInt8 × UInt8) → HostM UInt8
  | [] => throw (.err .badMessage)
  | (extCsdBits, busWidth) :: widths => do
      match ← result (mmcSwitch extCsdBusWidth extCsdBits true) with
      | .error _ => tryBusWidths extCsd widths
      | .ok _ =>
          mmcSetBusWidth busWidth
          match ← result mmcSendExtCsd with
          | .error _ => tryBusWidths extCsd widths
          | .ok testCsd => if sameExtCsd extCsd testCsd then return busWidth else tryBusWidths extCsd widths

def mmcSelectBusWidth : HostM UInt8 := do
  let version := ((← get).card.map EMmcCard.version).getD 0
  let hostCaps := (← get).hostCaps
  if version < mmcVersion4 ∨ hostCaps &&& (mmcMode4bit ||| mmcMode8bit) = 0 then
    return 0
  else
    let extCsd ← mmcSendExtCsd
    let narrow := [(extCsdBusWidth4, mmcBusWidth4bit)]
    tryBusWidths extCsd
      (if hostCaps &&& mmcMode8bit ≠ 0 then (extCsdBusWidth8, mmcBusWidth8bit) :: narrow else narrow)

def mmcSelectHs200 : HostM Unit := do
  let ret ← mmcSelectBusWidth
  if ret > 0 then
    mmcSwitch extCsdHsTiming extCsdTimingHs200 false
    mmcSetTiming mmcTimingMmcHs200

/-- The types that both the host and the card have. -/
def mmcSelectCardType (hostCaps : UInt32) (extCsd : Block) : UInt16 :=
  let cardType := (extCsd extCsdCardType).toUInt16
  let offer (host : UInt32) (card avail : UInt16) : UInt16 :=
    if hostCaps &&& host ≠ 0 ∧ cardType &&& card ≠ 0 then avail else 0
  let availType :=
    offer mmcModeHs extCsdCardType26 extCsdCardType26 ||| offer mmcModeHs extCsdCardType52 extCsdCardType52 |||
      offer mmcModeDdr52mhz extCsdCardTypeDdr18v extCsdCardTypeDdr18v |||
      offer mmcModeHs200 extCsdCardTypeHs20018v extCsdCardTypeHs20018v |||
      (if hostCaps &&& mmcMode8bit ≠ 0 then
        offer mmcModeHs400 extCsdCardTypeHs40018v (extCsdCardTypeHs20018v ||| extCsdCardTypeHs40018v)
      else 0)
  if hostCaps &&& mmcModeHs400es ≠ 0 ∧ hostCaps &&& mmcMode8bit ≠ 0 ∧ extCsd extCsdStrobeSupport ≠ 0 ∧
      availType &&& extCsdCardTypeHs40018v ≠ 0 then
    availType ||| extCsdCardTypeHs20018v ||| extCsdCardTypeHs40018v ||| extCsdCardTypeHs400es
  else availType

def mmcCardHs (timing : UInt32) : Prop := timing = mmcTimingMmcHs ∨ timing = mmcTimingSdHs

instance (timing : UInt32) : Decidable (mmcCardHs timing) := inferInstanceAs (Decidable (_ ∨ _))

def mmcSetBusSpeed (availType : UInt16) : HostM Unit := do
  let timing := (← getCard).timing
  mmcSetClock
    (if mmcCardHs timing then
      if availType &&& extCsdCardType52 ≠ 0 then mmcHigh52MaxDtr else mmcHigh26MaxDtr
    else if timing = mmcTimingMmcHs200 then mmcHs200MaxDtr
    else 0)

def emmcSendTuning (opcode : UInt8) : HostM Unit := do
  let busWidth := (← getCard).busWidth
  let blockSize : UInt16 := if opcode = Opcode.mmcSendTuningBlockHs200 ∧ busWidth = mmcBusWidth8bit then 128 else 64
  writeReg16 emmcBlockSize (((7 : UInt16) &&& 0x7) <<< 12 ||| blockSize &&& 0x0FFF)
  writeReg16 emmcXferMode emmcTrnsRead
  let _ ← sendCommand { opcode, arg := 0, respType := mmcRspR1 }

/-- At most so many tuning blocks. -/
def emmcExecuteTuning (opcode : UInt8) : Nat → HostM Unit
  | 0 => throw (.err .timeout)
  | loops + 1 => do
      emmcSendTuning opcode
      let ctrl ← readReg16 emmcHostCtrl2
      if ctrl &&& mmcCtrlExecTuning ≠ 0 then emmcExecuteTuning opcode loops
      else if ctrl &&& mmcCtrlTunedClk ≠ 0 then return ()
      else throw (.err .timeout)

def mmcHs200Tuning : HostM Unit := do
  let timing := (← getCard).timing
  if timing = mmcTimingMmcHs200 then
    let ctrl ← readReg16 emmcHostCtrl2
    writeReg16 emmcHostCtrl2 (ctrl ||| mmcCtrlExecTuning)
    emmcExecuteTuning Opcode.mmcSendTuningBlockHs200 40
  else
    throw (.err .invalidArgument)

/-- The end of `mmc_change_freq`, once a mode is selected. -/
def finishMode (availType : UInt16) : HostM Unit := do
  let card ← getCard
  if card.timing = mmcTimingMmcHs200 then
    let tuningResult ← result mmcHs200Tuning
    if availType &&& extCsdCardTypeHs400 ≠ 0 ∧ card.busWidth = mmcBusWidth8bit then mmcSetBusSpeed availType
    match tuningResult with
    | .ok _ => return ()
    | .error err => throw (.err err)
  else if card.timing ≠ mmcTimingMmcHs400es then
    let widthResult ← mmcSelectBusWidth
    if widthResult = 0 then throw (.err .busWidth)
    else if availType &&& extCsdCardTypeDdr52 ≠ 0 then throw (.panic .todo)
    else return ()
  else
    return ()

def mmcChangeFreq : HostM Unit := do
  modifyCard fun card => { card with cardCaps := 0 }
  if (← getCard).version < mmcVersion4 then
    return ()
  else
    modifyCard fun card => { card with cardCaps := mmcMode4bit ||| mmcMode8bit }
    let extCsd ← mmcSendExtCsd
    let availType := mmcSelectCardType (← get).hostCaps extCsd
    if availType &&& extCsdCardTypeHs200 ≠ 0 then mmcSelectHs200
    else if availType &&& extCsdCardTypeHs ≠ 0 then mmcSelectHs
    else throw (.err .invalidArgument)
    mmcSetBusSpeed availType
    finishMode availType

/-! ## CSD -/

def csdVersion (csd : Vector UInt32 4) : UInt32 := (csd[0] >>> 26) &&& 0xf

def versionOfCsd (csd : Vector UInt32 4) : UInt32 :=
  match csdVersion csd with
  | 0 => mmcVersion12
  | 1 => mmcVersion14
  | 2 => mmcVersion22
  | 3 => mmcVersion3
  | 4 => mmcVersion4
  | _ => mmcVersion12

def readBlLen (csd : Vector UInt32 4) : UInt32 := (csd[1] >>> 16) &&& 0xf
def writeBlLen (csd : Vector UInt32 4) : UInt32 := (csd[3] >>> 22) &&& 0xf
def dsrImp (csd : Vector UInt32 4) : UInt32 := (csd[1] >>> 12) &&& 0x1

def clipBlLen (len : UInt32) : UInt32 := if len > mmcMaxBlockLen then mmcMaxBlockLen else len

def csize (csd : Vector UInt32 4) (highCapacity : Bool) : UInt32 :=
  if highCapacity then (csd[1] &&& 0x3f) <<< 16 ||| (csd[2] &&& 0xffff0000) >>> 16
  else (csd[1] &&& 0x3ff) <<< 2 ||| (csd[2] &&& 0xc0000000) >>> 30

def cmult (csd : Vector UInt32 4) (highCapacity : Bool) : UInt32 :=
  if highCapacity then 8 else (csd[2] &&& 0x00038000) >>> 15

/-- The capacity that the CSD gives. The last factor is the exponent of the block length itself. -/
def csdCapacity (csd : Vector UInt32 4) (highCapacity : Bool) : UInt64 :=
  ((csize csd highCapacity).toUInt64 + 1) <<< ((cmult csd highCapacity).toUInt64 + 2) * (readBlLen csd).toUInt64

def eraseGroup (csd : Vector UInt32 4) : UInt32 :=
  let eraseGsz := (csd[2] &&& 0x00007c00) >>> 10
  let eraseGmul := (csd[2] &&& 0x000003e0) >>> 5
  (eraseGsz + 1) * (eraseGmul + 1)

/-- The CSD part of `init_card`. The table of frequency bases has four entries, its index three bits. -/
def decodeCsd (csd : Vector UInt32 4) (highCapacity : Bool) : HostM Unit := do
  modifyCard fun card =>
    if card.version = mmcVersionUnknown then { card with version := versionOfCsd card.csd } else card
  if (csd[0] &&& 0x7).toNat < fbase.length then
    modifyCard fun card =>
      { card with
        dsrImp := dsrImp csd
        capacityUser := csdCapacity csd highCapacity
        readBlLen := clipBlLen (readBlLen csd)
        writeBlLen := clipBlLen (writeBlLen csd) }
  else
    throw (.panic .indexOutOfBounds)

/-! ## EXT_CSD -/

section

variable (extCsd : Block)

/-- A little-endian number of several bytes. -/
def leBytes (index : Fin 512) : Nat → UInt64
  | 0 => 0
  | count + 1 => (extCsd index).toUInt64 ||| leBytes (index + 1) count <<< 8

/-- `SEC_COUNT` in bytes. -/
def extCsdCapacity : UInt64 := leBytes extCsd extCsdSecCnt 4 * mmcMaxBlockLen.toUInt64

def partCompleted : Bool :=
  (extCsd extCsdPartitionSetting).toUInt32 &&& extCsdPartitionSettingCompleted ≠ 0

def supportsParts : Bool := (extCsd extCsdPartitioningSupport).toUInt32 &&& partSupport ≠ 0

def hcGroup : UInt64 := (extCsd extCsdHcEraseGrpSize).toUInt64 * (extCsd extCsdHcWpGrpSize).toUInt64

def gpMult (i : Fin 4) : UInt64 := leBytes extCsd (extCsdGpSizeMult + 3 * Fin.ofNat 512 i) 3

/-- Some partition is configured, so that erase groups are the large ones. -/
def hasParts : Bool :=
  (List.finRange 4).any (fun i => gpMult extCsd i != 0) || partCompleted extCsd ||
    (supportsParts extCsd && decide ((extCsd extCsdPartitionsAttribute).toUInt32 &&& partEnhAttrib ≠ 0))

/-- `none` is the panic on an unknown revision. -/
def versionOfRev : Option UInt32 :=
  match extCsd extCsdRev with
  | 1 => some mmcVersion41
  | 2 => some mmcVersion42
  | 3 => some mmcVersion43
  | 5 => some mmcVersion441
  | 6 => some mmcVersion45
  | 7 => some mmcVersion50
  | 8 => some mmcVersion51
  | _ => none

/-- The capacity and the version that a card of revision 2 or later gives. -/
def readRevision : HostM Unit := do
  if extCsd extCsdRev ≥ 2 then
    if extCsdCapacity extCsd >>> 20 > 2 * 1024 then
      modifyCard fun card => { card with capacityUser := extCsdCapacity extCsd }
    match versionOfRev extCsd with
    | some version => modifyCard fun card => { card with version }
    | none => throw (.panic .unknownRevision)

/-- The partition fields of a card. -/
def EMmcCard.withPartitions (card : EMmcCard) (highCapacity : Bool) : EMmcCard :=
  let completed := partCompleted extCsd
  { card with
    partSupport := extCsd extCsdPartitioningSupport
    partConfig :=
      if supportsParts extCsd ∨ extCsd extCsdBootMult ≠ 0 then extCsd extCsdPartConf else card.partConfig
    partAttr :=
      if completed ∧ (extCsd extCsdPartitioningSupport).toUInt32 &&& enhncdSupport ≠ 0 then
        extCsd extCsdPartitionsAttribute
      else card.partAttr
    capacityBoot := (extCsd extCsdBootMult).toUInt64 <<< 17
    capacityRpmb := (extCsd extCsdRpmbMult).toUInt64 <<< 17
    capacityGp := if completed then Vector.ofFn fun i => (gpMult extCsd i * hcGroup extCsd) <<< 19 else card.capacityGp
    enhUserSize :=
      if completed then (leBytes extCsd extCsdEnhSizeMult 3 * hcGroup extCsd) <<< 19 else card.enhUserSize
    enhUserStart :=
      if completed then
        leBytes extCsd extCsdEnhStartAddr 4 <<< (if highCapacity then 9 else 0)
      else card.enhUserStart }

/-- The erase group, and the capacity of a partitioned card of high capacity. -/
def EMmcCard.withEraseGroup (card : EMmcCard) (csd : Vector UInt32 4) (highCapacity : Bool) : EMmcCard :=
  if extCsd extCsdEraseGroupDef &&& 0x01 ≠ 0 then
    { card with
      eraseGrpSize := (extCsd extCsdHcEraseGrpSize).toUInt32 * 1024
      capacityUser := if highCapacity ∧ partCompleted extCsd then extCsdCapacity extCsd else card.capacityUser }
  else { card with eraseGrpSize := eraseGroup csd }

/-- Large erase groups are switched on for a card with partitions. -/
def defineEraseGroup : HostM Block := do
  if hasParts extCsd then
    match ← result (mmcSwitch extCsdEraseGroupDef 1 true) with
    | .error _ => throw (.err .commandError)
    | .ok _ => return Function.update extCsd extCsdEraseGroupDef 1
  else
    return extCsd

end

/-- The part of `init_card` for a card of version 4. -/
def initExtCsd (csd : Vector UInt32 4) (highCapacity : Bool) : HostM Unit := do
  mmcSelectHs
  mmcSetClock mmcHigh52MaxDtr
  let extCsd ← mmcSendExtCsd
  readRevision extCsd
  modifyCard fun card => card.withPartitions extCsd highCapacity
  let extCsd ← defineEraseGroup extCsd
  modifyCard fun card => card.withEraseGroup extCsd csd highCapacity
  modifyCard fun card =>
    { card with
      hcWpGrpSize := 1024 * hcGroup extCsd
      wrRelSet := extCsd extCsdWrRelSet
      rawDriverStrength := extCsd extCsdDriverStrength }

/-! ## Initialisation -/

/-- The capacity of a partition, by its number. -/
def EMmcCard.partCapacity (card : EMmcCard) (partNum : Nat) : Option UInt64 :=
  match partNum with
  | 0 => some card.capacityUser
  | 1 | 2 => some card.capacityBoot
  | 3 => some card.capacityRpmb
  | 4 => some card.capacityGp[0]
  | 5 => some card.capacityGp[1]
  | 6 => some card.capacityGp[2]
  | 7 => some card.capacityGp[3]
  | _ => none

/-- The number of blocks is computed and dropped, but its division remains. -/
def mmcSetCapacity (partNum : Nat) : HostM Unit := do
  match (← get).card with
  | none => throw (.err .invalidArgument)
  | some card =>
      match card.partCapacity partNum with
      | none => throw (.err .invalidArgument)
      | some capacity =>
          modifyCard fun card => { card with capacity }
          if card.readBlLen = 0 then throw (.panic .divideByZero)

def setDsr (csd : Vector UInt32 4) : HostM Unit := do
  let card ← getCard
  if dsrImp csd ≠ 0 ∧ card.dsr ≠ 0xffffffff then
    let _ ← sendCommand { opcode := Opcode.mmcSetDsr, arg := (card.dsr &&& 0xffff) <<< 16, respType := mmcRspNone }

def selectCard : HostM Unit := do
  let rca := (← getCard).rca
  let _ ← sendCommand { opcode := Opcode.mmcSelectCard, arg := rca <<< 16, respType := mmcRspR1 }

def initVersion4 (csd : Vector UInt32 4) (highCapacity : Bool) : HostM Unit := do
  if (← getCard).version ≥ mmcVersion4 then initExtCsd csd highCapacity

def initCard : HostM Unit := do
  mmcGoIdle
  let ocr ← mmcSendOpCond 0 100
  modifyCard fun card => { card with rca := 1 }
  let highCapacity := decide (ocr &&& ocrHcs = ocrHcs)
  modifyCard fun card => { card with highCapacity }
  mmcAllSendCid
  mmcSetRelativeAddr
  let csd ← mmcSendCsd
  decodeCsd csd highCapacity
  setDsr csd
  selectCard
  modifyCard fun card => { card with eraseGrpSize := 1, partConfig := mmcpartNoavailable }
  initVersion4 csd highCapacity
  mmcSetCapacity 0
  mmcChangeFreq
  modifyCard fun card => { card with initialized := true }

def getBlockNum (host : EMmcHost) : UInt64 :=
  match host.card with
  | some card => card.capacityUser / 512
  | none => 0

end Rknpu.Emmc
