import Rknpu.Lib.Fields
import Rknpu.Lib.Signed

/-!
# The clock unit

A translation of `rk3588-clk/src/lib.rs` for the eMMC clock and the clocks of the NPU. A write to a select register takes
the bits of the low half that the high half enables. A rate is a `usize`.
-/

namespace Rknpu.Clock

/-! ## Constants -/

def oscHz : UInt64 := 24 * 1000 * 1000
def gpllHz : UInt64 := 1188 * 1000 * 1000
def cpllHz : UInt64 := 1500 * 1000 * 1000

def cclkEmmcDivShift : UInt32 := 8
def cclkEmmcDivMask : UInt32 := 0x3f <<< cclkEmmcDivShift
def cclkEmmcSelShift : UInt32 := 14
def cclkEmmcSelMask : UInt32 := 3 <<< cclkEmmcSelShift

def cclkEmmcSelGpll : UInt32 := 0
def cclkEmmcSelCpll : UInt32 := 1

def sclkSfcSelCpll : UInt32 := 0
def sclkSfcSelGpll : UInt32 := 1
def sclkSfcSel24m : UInt32 := 2

def dclkDecom : UInt32 := 119
def hclkNpuCm0Root : UInt32 := 294
def clkNpuCm0Rtc : UInt32 := 296
def hclkNpuRoot : UInt32 := 303
def clkNpuDsu0 : UInt32 := 304
def pclkNpuRoot : UInt32 := 305
def clkNputimerRoot : UInt32 := 307
def cclkEmmc : UInt32 := 314
def bclkEmmc : UInt32 := 315
def sclkSfc : UInt32 := 317
def cclkSrcSdio : UInt32 := 410

/-! ## State -/

/-- The select registers that the functions below touch. -/
structure ClkSelRegisters where
  con73 : UInt32
  con74 : UInt32
  con77 : UInt32
deriving DecidableEq, Repr

structure Rk3588Cru where
  cpllHz : UInt64
  gpllHz : UInt64

def Rk3588Cru.new : Rk3588Cru where
  cpllHz := Clock.cpllHz
  gpllHz := Clock.gpllHz

/-! ## eMMC -/

def divToRate (rate : UInt64) (div : UInt32) : UInt64 := rate / (div.toUInt64 + 1)

/-- Both steps of the numerator may leave 64 bits. -/
def divRoundUp (overflowChecks : Bool) (dividend divisor : UInt64) : Option UInt64 := do
  let sum ← arith overflowChecks (decide (dividend.toNat + divisor.toNat < 2 ^ 64)) (dividend + divisor)
  let numerator ← arith overflowChecks (decide (1 ≤ sum)) (sum - 1)
  return numerator / divisor

/-- The parent that a read of the register takes. -/
def Rk3588Cru.emmcParent (cru : Rk3588Cru) (sel : UInt32) : UInt64 :=
  if sel = cclkEmmcSelGpll then cru.gpllHz
  else if sel = cclkEmmcSelCpll then cru.cpllHz
  else oscHz

/-- `none` is a panic: the other clocks of the card are `todo!`, and any further id is refused. -/
def Rk3588Cru.mmcGetClk (cru : Rk3588Cru) (clksel : ClkSelRegisters) (clkId : UInt32) : Option (Except Unit UInt64) :=
  if clkId = cclkEmmc then
    let config := clksel.con77
    let div := (config &&& cclkEmmcDivMask) >>> cclkEmmcDivShift
    let sel := (config &&& cclkEmmcSelMask) >>> cclkEmmcSelShift
    some (.ok (divToRate (cru.emmcParent sel) div))
  else none

/-- The word that selects a parent and a divider. -/
def emmcWord (srcClk div : UInt32) : UInt32 :=
  let newValue := srcClk <<< cclkEmmcSelShift ||| (div - 1) <<< cclkEmmcDivShift
  let mask := cclkEmmcSelMask ||| cclkEmmcDivMask
  (mask ||| newValue) <<< 16 ||| newValue

/-- The parent and the divider for a rate. -/
def Rk3588Cru.emmcSource (overflowChecks : Bool) (cru : Rk3588Cru) (rate : UInt64) : Option (UInt32 × UInt64) :=
  if rate = 0 then none
  else if oscHz % rate = 0 then (divRoundUp overflowChecks oscHz rate).map (sclkSfcSel24m, ·)
  else if cru.cpllHz % rate = 0 then (divRoundUp overflowChecks cru.cpllHz rate).map (sclkSfcSelCpll, ·)
  else (divRoundUp overflowChecks cru.gpllHz rate).map (sclkSfcSelGpll, ·)

def Rk3588Cru.mmcSetClk (overflowChecks : Bool) (cru : Rk3588Cru) (clksel : ClkSelRegisters) (clkId : UInt32)
    (rate : UInt64) : Option (Except Unit UInt64 × ClkSelRegisters) :=
  if clkId = cclkEmmc then do
    let (srcClk, div) ← cru.emmcSource overflowChecks rate
    let _ ← arith overflowChecks (decide (1 ≤ div.toUInt32)) ()
    let clksel := { clksel with con77 := UInt32.hiwordWrite clksel.con77 (emmcWord srcClk div.toUInt32) }
    let freq ← cru.mmcGetClk clksel clkId
    return (freq, clksel)
  else if clkId = cclkSrcSdio ∨ clkId = bclkEmmc ∨ clkId = sclkSfc ∨ clkId = dclkDecom then none
  else some (.error (), clksel)

/-! ## NPU -/

/-- The bits of a word behind a shift. -/
def bits (val shift mask : UInt32) : UInt32 := (val >>> shift) &&& mask

/-- `gpll_cpll_aupll_npll_spll_p` -/
def dsu0Parents : List UInt64 := [1188000000, 1000000000, 786432000, 850000000, 702000000]

/-- `mux_24m_32k_p` -/
def cm0RtcParents : List UInt64 := [24000000, 32768]

/-- The rate behind a multiplexer, if the selection exists. -/
def muxRate (rates : List UInt64) (muxVal : UInt32) : Except Unit UInt64 :=
  match rates[muxVal.toNat]? with
  | some rate => .ok rate
  | none => .error ()

/-- The rate behind a multiplexer and a divider. -/
def dividedRate (parents : List UInt64) (muxVal divVal : UInt32) : Except Unit UInt64 := do
  let parentRate ← muxRate parents muxVal
  return parentRate / (divVal + 1).toUInt64

def npuGetClk (reg : ClkSelRegisters) (clkId : UInt32) : Except Unit UInt64 :=
  if clkId = hclkNpuRoot then muxRate [200000000, 100000000, 50000000, 24000000] (bits reg.con73 0 0x3)
  else if clkId = clkNpuDsu0 then dividedRate dsu0Parents (bits reg.con73 7 0x7) (bits reg.con73 2 0x1F)
  else if clkId = pclkNpuRoot then muxRate [100000000, 50000000, 24000000] (bits reg.con74 1 0x3)
  else if clkId = hclkNpuCm0Root then muxRate [400000000, 200000000, 100000000, 24000000] (bits reg.con74 5 0x3)
  else if clkId = clkNpuCm0Rtc then dividedRate cm0RtcParents (bits reg.con74 12 0x1) (bits reg.con74 7 0x1F)
  else if clkId = clkNputimerRoot then muxRate [24000000, 100000000] (bits reg.con74 3 0x1)
  else .error ()

/-- The search for a parent and a divider, as far as it has come. -/
structure Best where
  parentIdx : Nat := 0
  div : Nat := 1
  rate : UInt64 := 0
  minDiff : UInt64 := 0xFFFFFFFFFFFFFFFF
deriving DecidableEq, Repr

/-- One turn of the inner loop. -/
def Best.consider (rate parentRate : UInt64) (idx : Nat) (best : Best) (div : Nat) : Best :=
  let calcRate := parentRate / UInt64.ofNat div
  if calcRate ≤ rate then
    let diff := rate - calcRate
    if diff < best.minDiff then { parentIdx := idx, div, rate := calcRate, minDiff := diff } else best
  else best

/-- All parents in order, each with the dividers 1 to 32. -/
def Best.search (parents : List UInt64) (rate : UInt64) : Best :=
  parents.zipIdx.foldl (fun best parent => (List.range' 1 32).foldl (Best.consider rate parent.1 parent.2) best) {}

/-- The word for a parent at `muxShift` and a divider at `divShift`. -/
def dividedWord (muxMask muxShift divShift : UInt32) (best : Best) : UInt32 :=
  let divVal := UInt32.ofNat (best.div - 1)
  muxMask <<< (muxShift + 16) ||| 0x1F <<< (divShift + 16) ||| UInt32.ofNat best.parentIdx <<< muxShift |||
    divVal <<< divShift

def setCon73 (reg : ClkSelRegisters) (value : UInt32) : ClkSelRegisters :=
  { reg with con73 := UInt32.hiwordWrite reg.con73 value }

def setCon74 (reg : ClkSelRegisters) (value : UInt32) : ClkSelRegisters :=
  { reg with con74 := UInt32.hiwordWrite reg.con74 value }

def npuSetClk (reg : ClkSelRegisters) (clkId : UInt32) (rate : UInt64) : Except Unit UInt64 × ClkSelRegisters :=
  if clkId = hclkNpuRoot then
    let (muxVal, actualRate) : UInt32 × UInt64 :=
      if rate ≥ 200000000 then (0, 200000000)
      else if rate ≥ 100000000 then (1, 100000000)
      else if rate ≥ 50000000 then (2, 50000000)
      else (3, 24000000)
    (.ok actualRate, setCon73 reg ((0x3 : UInt32) <<< 16 ||| muxVal))
  else if clkId = clkNpuDsu0 then
    let best := Best.search dsu0Parents rate
    if best.rate = 0 then (.error (), reg)
    else (.ok best.rate, setCon73 reg (dividedWord 0x7 7 2 best))
  else if clkId = pclkNpuRoot then
    let (muxVal, actualRate) : UInt32 × UInt64 :=
      if rate ≥ 100000000 then (0, 100000000)
      else if rate ≥ 50000000 then (1, 50000000)
      else (2, 24000000)
    (.ok actualRate, setCon74 reg ((0x3 : UInt32) <<< (1 + 16) ||| muxVal <<< 1))
  else if clkId = hclkNpuCm0Root then
    let (muxVal, actualRate) : UInt32 × UInt64 :=
      if rate ≥ 400000000 then (0, 400000000)
      else if rate ≥ 200000000 then (1, 200000000)
      else if rate ≥ 100000000 then (2, 100000000)
      else (3, 24000000)
    (.ok actualRate, setCon74 reg ((0x3 : UInt32) <<< (5 + 16) ||| muxVal <<< 5))
  else if clkId = clkNpuCm0Rtc then
    let best := Best.search cm0RtcParents rate
    if best.rate = 0 then (.error (), reg)
    else (.ok best.rate, setCon74 reg (dividedWord 0x1 12 7 best))
  else if clkId = clkNputimerRoot then
    let (muxVal, actualRate) : UInt32 × UInt64 :=
      if rate ≥ 100000000 then (1, 100000000)
      else (0, 24000000)
    (.ok actualRate, setCon74 reg ((0x1 : UInt32) <<< (3 + 16) ||| muxVal <<< 3))
  else (.error (), reg)

end Rknpu.Clock
