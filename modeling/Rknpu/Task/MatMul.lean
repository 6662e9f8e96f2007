import Rknpu.Lib.Arith
import Rknpu.Lib.Signed
import Rknpu.Task.Def

/-!
# Matrix multiplication

A translation of `task/op/matmul.rs` for `i8 x i8 -> i32`: where the elements of the matrices are stored, and the command
words that `fill_regcmd` makes of the dimensions. The descriptors are those of `task/cna.rs` and `task/dpu.rs`; their
`default` is all zeros.
-/

namespace Rknpu.Task

open UInt32 (Field)

/-! ## Descriptors -/

/-- `enable` is never read. -/
structure NpuCnaDesc where
  convMode : UInt8 := 0
  inPrecision : UInt8 := 0
  procPrecision : UInt8 := 0
  kernelGroups : UInt8 := 0
  featureGrains : UInt16 := 0
  convYStride : UInt8 := 0
  convXStride : UInt8 := 0
  datainWidth : UInt16 := 0
  datainHeight : UInt16 := 0
  datainChannel : UInt16 := 0
  dataoutWidth : UInt16 := 0
  dataoutAtomics : UInt32 := 0
  weightBytes : UInt32 := 0
  weightBytesPerKernel : UInt32 := 0
  weightWidth : UInt8 := 0
  weightHeight : UInt8 := 0
  weightKernels : UInt16 := 0
  weightBank : UInt8 := 0
  dataBank : UInt8 := 0
  dataEntries : UInt16 := 0
  dataSign : UInt8 := 0
  cvtType : UInt8 := 0
  cvtBypass : UInt8 := 0
  cvtScale0 : UInt16 := 0
  cvtScale1 : UInt16 := 0
  cvtScale2 : UInt16 := 0
  cvtScale3 : UInt16 := 0
  fcSkipEn : UInt8 := 0
  dataOffset : UInt16 := 0
  padLeft : UInt8 := 0
  padTop : UInt8 := 0
  featureBaseAddr : UInt32 := 0
  weightOffset : UInt16 := 0
  weightBurstLen : UInt8 := 0
  dataBurstLen : UInt8 := 0
  lineStride : UInt32 := 0
  surfStride : Int32 := 0
  dmaWidth : UInt16 := 0
  dmaHeight : UInt16 := 0
  dmaChannel : UInt16 := 0
  decompressAddr0 : UInt32 := 0
  dataoutHeight : UInt16 := 0

/-- The MAC core. -/
structure NpuCoreDesc where
  procPrecision : UInt8 := 0
  qdEn : UInt8 := 0
  dataoutHeight : UInt16 := 0
  dataoutWidth : UInt16 := 0
  dataoutChannel : UInt16 := 0

/-- The output stage. -/
structure NpuDpuDesc where
  burstLen : UInt8 := 0
  convMode : UInt8 := 0
  outputMode : UInt8 := 0
  flyingMode : UInt8 := 0
  outPrecision : UInt8 := 0
  inPrecision : UInt8 := 0
  procPrecision : UInt8 := 0
  dstBaseAddr : UInt32 := 0
  dstSurfStride : UInt32 := 0
  width : UInt16 := 0
  height : UInt16 := 0
  channel : UInt16 := 0
  bsBypass : UInt8 := 0
  bsAluBypass : UInt8 := 0
  bsMulBypass : UInt8 := 0
  bsReluBypass : UInt8 := 0
  odBypass : UInt8 := 0
  sizeE2 : UInt8 := 0
  sizeE1 : UInt8 := 0
  sizeE0 : UInt8 := 0
  channelWdma : UInt16 := 0
  heightWdma : UInt16 := 0
  widthWdma : UInt16 := 0
  bnReluBypass : UInt8 := 0
  bnMulBypass : UInt8 := 0
  bnAluBypass : UInt8 := 0
  bnBypass : UInt8 := 0
  ewBypass : UInt8 := 0
  ewOpBypass : UInt8 := 0
  ewLutBypass : UInt8 := 0
  ewOpCvtBypass : UInt8 := 0
  ewReluBypass : UInt8 := 0
  fp32tofp16En : UInt8 := 0
  outCvtScale : UInt16 := 0
  surfAdd : UInt32 := 0

/-! ## Command words -/

/-- Register writes of one block. -/
def registerWrites (op : UInt32) (registers : List (UInt32 × List Field)) : List Command :=
  registers.map fun (reg, fields) => ⟨op, reg, fields⟩

def cnaRegisters (cna : NpuCnaDesc) : List (UInt32 × List Field) :=
  [(cnaConvCon1, [⟨cna.procPrecision.toUInt32, 0x7, 7⟩, ⟨cna.inPrecision.toUInt32, 0x7, 4⟩,
      ⟨cna.convMode.toUInt32, 0xF, 0⟩]),
    (cnaConvCon2, [⟨cna.kernelGroups.toUInt32, 0xFF, 16⟩, ⟨cna.featureGrains.toUInt32, 0x3FF, 4⟩]),
    (cnaConvCon3, [⟨cna.convYStride.toUInt32, 0x7, 3⟩, ⟨cna.convXStride.toUInt32, 0x7, 0⟩]),
    (cnaDataSize0, [⟨cna.datainWidth.toUInt32, 0x7FF, 16⟩, ⟨cna.datainHeight.toUInt32, 0x7FF, 0⟩]),
    (cnaDataSize1, [⟨(cna.datainChannel - 1).toUInt32, 0xFFFF, 16⟩, ⟨cna.datainChannel.toUInt32, 0xFFFF, 0⟩]),
    (cnaDataSize2, [⟨cna.dataoutWidth.toUInt32, 0x7FF, 0⟩]),
    (cnaDataSize3, [⟨cna.dataoutAtomics, 0x3FFFF, 0⟩]),
    (cnaWeightSize0, [⟨cna.weightBytes, 0xFFFFFFFF, 0⟩]),
    (cnaWeightSize1, [⟨cna.weightBytesPerKernel, 0x7FFFF, 0⟩]),
    (cnaWeightSize2, [⟨cna.weightWidth.toUInt32, 0x1F, 24⟩, ⟨cna.weightHeight.toUInt32, 0x1F, 16⟩,
      ⟨cna.weightKernels.toUInt32, 0x3FFF, 0⟩]),
    (cnaCbufCon0, [⟨cna.weightBank.toUInt32, 0xF, 4⟩, ⟨cna.dataBank.toUInt32, 0xF, 0⟩]),
    (cnaCbufCon1, [⟨cna.dataEntries.toUInt32, 0x1FFF, 0⟩]),
    (cnaCvtCon0, [⟨cna.dataSign.toUInt32, 0x1, 3⟩, ⟨cna.cvtType.toUInt32, 0x1, 1⟩, ⟨cna.cvtBypass.toUInt32, 0x1, 0⟩]),
    (cnaCvtCon1, [⟨cna.cvtScale0.toUInt32, 0xFFFF, 16⟩]),
    (cnaCvtCon2, [⟨cna.cvtScale1.toUInt32, 0xFFFF, 16⟩]),
    (cnaCvtCon3, [⟨cna.cvtScale2.toUInt32, 0xFFFF, 16⟩]),
    (cnaCvtCon4, [⟨cna.cvtScale3.toUInt32, 0xFFFF, 16⟩]),
    (cnaFcCon0, [⟨cna.fcSkipEn.toUInt32, 0x1, 0⟩]),
    (cnaFcCon1, [⟨cna.dataOffset.toUInt32, 0x1FFFF, 0⟩]),
    (cnaPadCon0, [⟨cna.padLeft.toUInt32, 0xF, 4⟩, ⟨cna.padTop.toUInt32, 0xF, 0⟩]),
    (cnaFeatureDataAddr, [⟨cna.featureBaseAddr, 0xFFFFFFFF, 0⟩]),
    (cnaFcCon2, [⟨cna.weightOffset.toUInt32, 0x1FFFF, 0⟩]),
    (cnaDmaCon0, [⟨cna.weightBurstLen.toUInt32, 0xF, 16⟩, ⟨cna.dataBurstLen.toUInt32, 0xF, 0⟩]),
    (cnaDmaCon1, [⟨cna.lineStride, 0xFFFFFFF, 0⟩]),
    (cnaDmaCon2, [⟨cna.surfStride.toUInt32, 0xFFFFFFF, 0⟩]),
    (cnaFcDataSize0, [⟨cna.dmaWidth.toUInt32, 0x7FF, 16⟩, ⟨cna.dmaHeight.toUInt32, 0x7FF, 0⟩]),
    (cnaFcDataSize1, [⟨cna.dmaChannel.toUInt32, 0xFFFF, 0⟩]),
    (cnaDcompCtrl, []),
    (cnaDcompRegnum, []),
    (cnaDcompAddr0, [⟨cna.decompressAddr0, 0xFFFFFFFF, 0⟩]),
    (cnaDcompAmount, []),
    (cnaDcompAmount1, []),
    (cnaDcompAmount2, []),
    (cnaDcompAmount3, []),
    (cnaDcompAmount4, []),
    (cnaDcompAmount5, []),
    (cnaDcompAmount6, []),
    (cnaDcompAmount7, []),
    (cnaDcompAmount8, []),
    (cnaDcompAmount9, []),
    (cnaDcompAmount10, []),
    (cnaDcompAmount11, []),
    (cnaDcompAmount12, []),
    (cnaDcompAmount13, []),
    (cnaDcompAmount14, []),
    (cnaDcompAmount15, []),
    (cnaCvtCon5, []),
    (cnaPadCon1, [])]

def coreRegisters (core : NpuCoreDesc) : List (UInt32 × List Field) :=
  [(coreMiscCfg, [⟨core.procPrecision.toUInt32, 0x7, 8⟩, ⟨core.qdEn.toUInt32, 0x1, 0⟩]),
    (coreDataoutSize0, [⟨core.dataoutHeight.toUInt32, 0xFFFF, 16⟩, ⟨core.dataoutWidth.toUInt32, 0xFFFF, 0⟩]),
    (coreDataoutSize1, [⟨core.dataoutChannel.toUInt32, 0xFFFF, 0⟩]),
    (coreClipTruncate, []),
    (core3030, [])]

def dpuRegisters (dpu : NpuDpuDesc) : List (UInt32 × List Field) :=
  [(dpuFeatureModeCfg, [⟨dpu.burstLen.toUInt32, 0xF, 5⟩, ⟨dpu.convMode.toUInt32, 0x3, 3⟩,
      ⟨dpu.outputMode.toUInt32, 0x3, 1⟩, ⟨dpu.flyingMode.toUInt32, 0x1, 0⟩]),
    (dpuDataFormat, [⟨dpu.outPrecision.toUInt32, 0x7, 29⟩, ⟨dpu.inPrecision.toUInt32, 0x7, 26⟩,
      ⟨dpu.procPrecision.toUInt32, 0x7, 0⟩]),
    (dpuOffsetPend, []),
    (dpuDstBaseAdd, [⟨dpu.dstBaseAddr, 0xFFFFFFFF, 0⟩]),
    (dpuDstSurfStride, [⟨dpu.dstSurfStride, 0xFFFFFFF, 4⟩]),
    (dpuDataCubeWidth, [⟨dpu.width.toUInt32, 0x1FFF, 0⟩]),
    (dpuDataCubeHeight, [⟨dpu.height.toUInt32, 0x1FFF, 0⟩]),
    (dpuDataCubeNotchAddr, []),
    (dpuDataCubeChannel, [⟨dpu.channel.toUInt32, 0x1FFF, 16⟩, ⟨dpu.channel.toUInt32, 0x1FFF, 0⟩]),
    (dpuBsCfg, [⟨dpu.bsReluBypass.toUInt32, 0x1, 6⟩, ⟨dpu.bsMulBypass.toUInt32, 0x1, 4⟩,
      ⟨dpu.bsAluBypass.toUInt32, 0x1, 1⟩, ⟨dpu.bsBypass.toUInt32, 0x1, 0⟩]),
    (dpuBsAluCfg, []),
    (dpuBsMulCfg, []),
    (dpuBsReluxCmpValue, []),
    (dpuBsOwCfg, [⟨dpu.sizeE2.toUInt32, 0x7, 8⟩, ⟨dpu.sizeE1.toUInt32, 0x7, 5⟩, ⟨dpu.sizeE0.toUInt32, 0x7, 2⟩,
      ⟨dpu.odBypass.toUInt32, 0x1, 1⟩]),
    (dpuBsOwOp, []),
    (dpuWdmaSize0, [⟨dpu.channelWdma.toUInt32, 0x1FFF, 0⟩]),
    (dpuWdmaSize1, [⟨dpu.heightWdma.toUInt32, 0x1FFF, 16⟩, ⟨dpu.widthWdma.toUInt32, 0x1FFF, 0⟩]),
    (dpuBnCfg, [⟨dpu.bnReluBypass.toUInt32, 0x1, 6⟩, ⟨dpu.bnMulBypass.toUInt32, 0x1, 4⟩,
      ⟨dpu.bnAluBypass.toUInt32, 0x1, 1⟩, ⟨dpu.bnBypass.toUInt32, 0x1, 0⟩]),
    (dpuBnAluCfg, []),
    (dpuBnMulCfg, []),
    (dpuBnReluxCmpValue, []),
    (dpuEwCfg, [⟨dpu.ewReluBypass.toUInt32, 0x1, 9⟩, ⟨dpu.ewOpCvtBypass.toUInt32, 0x1, 8⟩,
      ⟨dpu.ewLutBypass.toUInt32, 0x1, 7⟩, ⟨dpu.ewOpBypass.toUInt32, 0x1, 1⟩, ⟨dpu.ewBypass.toUInt32, 0x1, 0⟩]),
    (dpuEwCvtOffsetValue, []),
    (dpuEwCvtScaleValue, [⟨0x1, 0xFFFFFFFF, 0⟩]),
    (dpuEwReluxCmpValue, []),
    (dpuOutCvtOffset, []),
    (dpuOutCvtScale, [⟨dpu.fp32tofp16En.toUInt32, 0x1, 16⟩, ⟨dpu.outCvtScale.toUInt32, 0xFFFF, 0⟩]),
    (dpuOutCvtShift, []),
    (dpuEwOpValue0, []),
    (dpuEwOpValue1, []),
    (dpuEwOpValue2, []),
    (dpuEwOpValue3, []),
    (dpuEwOpValue4, []),
    (dpuEwOpValue5, []),
    (dpuEwOpValue6, []),
    (dpuEwOpValue7, []),
    (dpuSurfaceAdd, [⟨dpu.surfAdd, 0xFFFFFFF, 4⟩]),
    (dpu40c4, []),
    (dpuLutAccessCfg, []),
    (dpuLutAccessData, []),
    (dpuLutCfg, []),
    (dpuLutInfo, []),
    (dpuLutLeStart, []),
    (dpuLutLeEnd, []),
    (dpuLutLoStart, []),
    (dpuLutLoEnd, []),
    (dpuLutLeSlopeScale, []),
    (dpuLutLeSlopeShift, []),
    (dpuLutLoSlopeScale, []),
    (dpuLutLoSlopeShift, [])]

/-- The commands of `gen_matul`, in the order of `reg_cmds`. The last four start the pipeline. -/
def genMatul (cna : NpuCnaDesc) (core : NpuCoreDesc) (dpu : NpuDpuDesc) : List Command :=
  ⟨opRegDpu, dpuSPointer, []⟩ :: (registerWrites opRegCna (cnaRegisters cna) ++
    registerWrites opRegCore (coreRegisters core) ++ registerWrites opRegDpu (dpuRegisters dpu) ++
    [⟨opNone, 0x0, []⟩, ⟨opRegPc, pcRegisterAmounts, []⟩, ⟨op40, 0x0, []⟩,
      ⟨opEnable, pcOperationEnable, [⟨pcEnableDpu ||| pcEnableCna ||| pcEnable, 0xFFFFFFFF, 0⟩]⟩])

/-! ## From the dimensions to the descriptors -/

/-- `Precision`. -/
inductive Precision where
  | int8
  | float16
  | int32
  | float32
deriving DecidableEq, Repr

def Precision.toUInt8 : Precision → UInt8
  | int8 => 0x0
  | float16 => 0x2
  | int32 => 0x4
  | float32 => 0x5

/-- The operation with its buffers: their bus addresses and lengths in elements. -/
structure MatMul where
  m : UInt16
  k : UInt16
  n : UInt16
  input : UInt64
  inputLen : Nat
  weight : UInt64
  weightLen : Nat
  output : UInt64
  outputLen : Nat

/-- `MatMul::new` for `i8` and `i32`, when the three buffers could be allocated at the given addresses. -/
def MatMul.new (m k n : Nat) (input weight output : UInt64) : MatMul where
  m := UInt16.ofNat m
  k := UInt16.ofNat k
  n := UInt16.ofNat n
  input := input
  inputLen := m * k * 1
  weight := weight
  weightLen := k * n * 1
  output := output
  outputLen := m * n * 4

namespace MatMul

/-- The banks that `fill_regcmd` reserves for the features and the weights, or the panic of its guard. -/
def banks (overflowChecks : Bool) (mm : MatMul) : Option (UInt16 × UInt32) := do
  let datainWidth : UInt16 := 1
  let weightBytesPerKernel : UInt32 := 1 * 1 * mm.k.toUInt32 * 1
  let fdBytes ← arith overflowChecks (decide (mm.m.toNat * mm.k.toNat < 2 ^ 16)) (datainWidth * mm.m * mm.k * 1)
  let fdBanks := fdBytes / npuCbufBankSize
  let fdBanks := if fdBytes % npuCbufBankSize = 0 then fdBanks else fdBanks + 1
  if fdBanks > npuCbufBanks - 1 then none
  else if weightBytesPerKernel ≤ npuCbufBankSize.toUInt32 then some (fdBanks, npuCbufBanks.toUInt32 - fdBanks.toUInt32)
  else none

/-- `surf_stride`; the dimensions leave every step within 32 bits. -/
def surfStride (mm : MatMul) : Int32 :=
  let lineStride : UInt32 := 1 * 4
  let stride := lineStride.toInt32 * (mm.m.toUInt32.toInt32 / 4 - 1)
  if stride < 0 then stride + 1 else stride

def cnaDesc (mm : MatMul) (featureGrains : UInt16) (fdBanks : UInt16) (weightBanks : UInt32) : NpuCnaDesc where
  convMode := directConvolution
  inPrecision := Precision.int8.toUInt8
  procPrecision := Precision.int8.toUInt8
  kernelGroups := 0
  featureGrains := featureGrains
  convXStride := 1
  convYStride := 1
  datainWidth := 1
  datainHeight := mm.m
  datainChannel := mm.k
  dataoutWidth := 1
  dataoutHeight := mm.m
  dataoutAtomics := 1 * mm.m.toUInt32
  weightWidth := 1
  weightHeight := 1
  weightKernels := mm.n
  weightBytesPerKernel := 1 * 1 * mm.k.toUInt32 * 1
  weightBytes := 1 * 1 * mm.k.toUInt32 * 1 * mm.n.toUInt32
  weightBank := weightBanks.toUInt8
  dataBank := fdBanks.toUInt8
  dataEntries := if 1 * mm.k % 64 = 0 then 1 * mm.k / 64 else 1 * mm.k / 64 + 1
  dataSign := 0x1
  cvtType := 0x1
  cvtBypass := 0x1
  cvtScale0 := 0x1
  cvtScale1 := 0x1
  cvtScale2 := 0x1
  cvtScale3 := 0x1
  fcSkipEn := 0
  dataOffset := 0x0
  padLeft := 0
  padTop := 0
  featureBaseAddr := mm.input.toUInt32
  weightOffset := 0
  weightBurstLen := 0xf
  dataBurstLen := 0xf
  lineStride := 1 * 4
  surfStride := mm.surfStride
  dmaWidth := 1
  dmaHeight := mm.m
  dmaChannel := mm.k
  decompressAddr0 := mm.weight.toUInt32

def coreDesc (mm : MatMul) : NpuCoreDesc where
  procPrecision := Precision.int8.toUInt8
  qdEn := 0
  dataoutHeight := mm.m - 1
  dataoutWidth := 1 - 1
  dataoutChannel := mm.n - 1

def dpuDesc (mm : MatMul) : NpuDpuDesc where
  burstLen := 0xf
  convMode := directConvolution
  outputMode := 0x2
  flyingMode := 0x0
  outPrecision := Precision.int32.toUInt8
  inPrecision := Precision.int8.toUInt8
  procPrecision := Precision.int8.toUInt8
  dstBaseAddr := mm.output.toUInt32
  dstSurfStride := mm.m.toUInt32 * 1
  width := mm.coreDesc.dataoutWidth
  height := mm.coreDesc.dataoutHeight
  channel := mm.coreDesc.dataoutChannel
  bsBypass := 1
  bsAluBypass := 1
  bsMulBypass := 1
  bsReluBypass := 1
  bnBypass := 1
  bnAluBypass := 1
  bnMulBypass := 1
  bnReluBypass := 1
  ewBypass := 1
  ewOpBypass := 1
  ewLutBypass := 1
  ewOpCvtBypass := 1
  ewReluBypass := 1
  fp32tofp16En := 0
  outCvtScale := 1
  sizeE2 := 7
  sizeE1 := 7
  sizeE0 := 7
  odBypass := 1
  widthWdma := mm.coreDesc.dataoutWidth
  heightWdma := mm.coreDesc.dataoutHeight
  channelWdma := mm.coreDesc.dataoutChannel
  surfAdd := mm.m.toUInt32 * 1 * 8

/-- `fill_regcmd`: the words it writes, or a panic. Dimensions of zero underflow where one is taken away. -/
def fillRegcmd (overflowChecks : Bool) (mm : MatMul) : Option (List UInt64) := do
  let featureGrains ← arith overflowChecks (decide (mm.m.toNat + 1 < 2 ^ 16)) (mm.m + 1)
  let (fdBanks, weightBanks) ← mm.banks overflowChecks
  let _ ← arith overflowChecks (decide (1 ≤ mm.m ∧ 1 ≤ mm.k ∧ 1 ≤ mm.n)) ()
  some ((genMatul (mm.cnaDesc featureGrains fdBanks weightBanks) mm.coreDesc mm.dpuDesc).map Command.word)

end MatMul

/-! ## Where the elements are stored -/

/-- `feature_data`, with positions counted from one. -/
def featureData (_channel height width channelGroup c h w : I32) : I32 :=
  let plane := (c - 1) / channelGroup
  let srcOffset := plane * height * width * channelGroup
  let channelOffset := (c - 1) % channelGroup
  srcOffset + channelGroup * ((h - 1) * width + (w - 1)) + channelOffset

/-- `weight_int8`. -/
def weightInt8 (channel kernel c : I32) : I32 :=
  let kernelPage := (kernel - 1) / 32
  let channelPage := (c - 1) / 32
  let dst := channelPage * 32 * 32 + kernelPage * 32 * channel
  dst + ((c - 1) % 32 + (kernel - 1) % 32 * 32)

/-- One element: its place in the buffer and in the slice it is taken from. -/
structure Store where
  idx : I32
  src : I32

namespace MatMul

/-- The stores of `set_a`, in order, if the slice has the right length. -/
def setA (mm : MatMul) (a : List Int8) : Option (List Store) :=
  if a.length = mm.m.toNat * mm.k.toNat then
    let m := I32.ofNat mm.m.toNat
    let k := I32.ofNat mm.k.toNat
    some ((List.range mm.m.toNat).flatMap fun i => (List.range mm.k.toNat).map fun j =>
      let row := I32.ofNat (i + 1)
      let col := I32.ofNat (j + 1)
      ⟨featureData k m 1 16 col row 1, (row - 1) * k + (col - 1)⟩)
  else none

/-- The stores of `set_b`, in order, if the slice has the right length. -/
def setB (mm : MatMul) (b : List Int8) : Option (List Store) :=
  if b.length = mm.k.toNat * mm.n.toNat then
    let k := I32.ofNat mm.k.toNat
    some ((List.range mm.n.toNat).flatMap fun i => (List.range mm.k.toNat).map fun j =>
      let kernel := I32.ofNat (i + 1)
      let col := I32.ofNat (j + 1)
      ⟨weightInt8 k kernel col, (kernel - 1) * k + (col - 1)⟩)
  else none

end MatMul

end Rknpu.Task
