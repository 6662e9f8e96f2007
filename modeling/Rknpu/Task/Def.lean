import Rknpu.Lib.Fields

/-!
# Registers and command words

The register addresses and opcodes of `task/def.rs` that a matrix multiplication uses, and the 64-bit word that `npu_op`
makes of one register write.
-/

namespace Rknpu.Task

/-! ## Limits -/

/-- `DIRECT_CONVOLUTION`. -/
def directConvolution : UInt8 := 0x0

/-- `NPU_CBUF_BANK_SIZE`: bytes of one CBUF bank. -/
def npuCbufBankSize : UInt16 := 32768

/-- `NPU_CBUF_BANKS`. -/
def npuCbufBanks : UInt16 := 12

/-! ## Opcodes -/

def blockPc : UInt32 := 0x0100
def blockCna : UInt32 := 0x0200
def blockCore : UInt32 := 0x0800
def blockDpu : UInt32 := 0x1000

def pcOp01 : UInt32 := 0x01
def pcOp40 : UInt32 := 0x40
def pcOpEnable : UInt32 := 0x80

def opRegPc : UInt32 := blockPc ||| pcOp01
def opRegCna : UInt32 := blockCna ||| pcOp01
def opRegCore : UInt32 := blockCore ||| pcOp01
def opRegDpu : UInt32 := blockDpu ||| pcOp01

def op40 : UInt32 := pcOp40 ||| pcOp01
def opEnable : UInt32 := pcOpEnable ||| pcOp01
def opNone : UInt32 := 0x0

def pcEnable : UInt32 := 0x01
def pcEnableCna : UInt32 := 0x04
def pcEnableDpu : UInt32 := 0x08

/-! ## Registers -/

def pcOperationEnable : UInt32 := 0x0008
def pcRegisterAmounts : UInt32 := 0x0014

def cnaConvCon1 : UInt32 := 0x100C
def cnaConvCon2 : UInt32 := 0x1010
def cnaConvCon3 : UInt32 := 0x1014
def cnaDataSize0 : UInt32 := 0x1020
def cnaDataSize1 : UInt32 := 0x1024
def cnaDataSize2 : UInt32 := 0x1028
def cnaDataSize3 : UInt32 := 0x102C
def cnaWeightSize0 : UInt32 := 0x1030
def cnaWeightSize1 : UInt32 := 0x1034
def cnaWeightSize2 : UInt32 := 0x1038
def cnaCbufCon0 : UInt32 := 0x1040
def cnaCbufCon1 : UInt32 := 0x1044
def cnaCvtCon0 : UInt32 := 0x104C
def cnaCvtCon1 : UInt32 := 0x1050
def cnaCvtCon2 : UInt32 := 0x1054
def cnaCvtCon3 : UInt32 := 0x1058
def cnaCvtCon4 : UInt32 := 0x105C
def cnaFcCon0 : UInt32 := 0x1060
def cnaFcCon1 : UInt32 := 0x1064
def cnaPadCon0 : UInt32 := 0x1068
def cnaFeatureDataAddr : UInt32 := 0x1070
def cnaFcCon2 : UInt32 := 0x1074
def cnaDmaCon0 : UInt32 := 0x1078
def cnaDmaCon1 : UInt32 := 0x107C
def cnaDmaCon2 : UInt32 := 0x1080
def cnaFcDataSize0 : UInt32 := 0x1084
def cnaFcDataSize1 : UInt32 := 0x1088
def cnaDcompCtrl : UInt32 := 0x1100
def cnaDcompRegnum : UInt32 := 0x1104
def cnaDcompAddr0 : UInt32 := 0x1110
def cnaDcompAmount : UInt32 := 0x1140
def cnaDcompAmount1 : UInt32 := 0x1144
def cnaDcompAmount2 : UInt32 := 0x1148
def cnaDcompAmount3 : UInt32 := 0x114C
def cnaDcompAmount4 : UInt32 := 0x1150
def cnaDcompAmount5 : UInt32 := 0x1154
def cnaDcompAmount6 : UInt32 := 0x1158
def cnaDcompAmount7 : UInt32 := 0x115C
def cnaDcompAmount8 : UInt32 := 0x1160
def cnaDcompAmount9 : UInt32 := 0x1164
def cnaDcompAmount10 : UInt32 := 0x1168
def cnaDcompAmount11 : UInt32 := 0x116C
def cnaDcompAmount12 : UInt32 := 0x1170
def cnaDcompAmount13 : UInt32 := 0x1174
def cnaDcompAmount14 : UInt32 := 0x1178
def cnaDcompAmount15 : UInt32 := 0x117C
def cnaCvtCon5 : UInt32 := 0x1180
def cnaPadCon1 : UInt32 := 0x1184

def coreMiscCfg : UInt32 := 0x3010
def coreDataoutSize0 : UInt32 := 0x3014
def coreDataoutSize1 : UInt32 := 0x3018
def coreClipTruncate : UInt32 := 0x301C
def core3030 : UInt32 := 0x3030

def dpuSPointer : UInt32 := 0x4004
def dpuFeatureModeCfg : UInt32 := 0x400C
def dpuDataFormat : UInt32 := 0x4010
def dpuOffsetPend : UInt32 := 0x4014
def dpuDstBaseAdd : UInt32 := 0x4020
def dpuDstSurfStride : UInt32 := 0x4024
def dpuDataCubeWidth : UInt32 := 0x4030
def dpuDataCubeHeight : UInt32 := 0x4034
def dpuDataCubeNotchAddr : UInt32 := 0x4038
def dpuDataCubeChannel : UInt32 := 0x403C
def dpuBsCfg : UInt32 := 0x4040
def dpuBsAluCfg : UInt32 := 0x4044
def dpuBsMulCfg : UInt32 := 0x4048
def dpuBsReluxCmpValue : UInt32 := 0x404C
def dpuBsOwCfg : UInt32 := 0x4050
def dpuBsOwOp : UInt32 := 0x4054
def dpuWdmaSize0 : UInt32 := 0x4058
def dpuWdmaSize1 : UInt32 := 0x405C
def dpuBnCfg : UInt32 := 0x4060
def dpuBnAluCfg : UInt32 := 0x4064
def dpuBnMulCfg : UInt32 := 0x4068
def dpuBnReluxCmpValue : UInt32 := 0x406C
def dpuEwCfg : UInt32 := 0x4070
def dpuEwCvtOffsetValue : UInt32 := 0x4074
def dpuEwCvtScaleValue : UInt32 := 0x4078
def dpuEwReluxCmpValue : UInt32 := 0x407C
def dpuOutCvtOffset : UInt32 := 0x4080
def dpuOutCvtScale : UInt32 := 0x4084
def dpuOutCvtShift : UInt32 := 0x4088
def dpuEwOpValue0 : UInt32 := 0x4090
def dpuEwOpValue1 : UInt32 := 0x4094
def dpuEwOpValue2 : UInt32 := 0x4098
def dpuEwOpValue3 : UInt32 := 0x409C
def dpuEwOpValue4 : UInt32 := 0x40A0
def dpuEwOpValue5 : UInt32 := 0x40A4
def dpuEwOpValue6 : UInt32 := 0x40A8
def dpuEwOpValue7 : UInt32 := 0x40AC
def dpuSurfaceAdd : UInt32 := 0x40C0
def dpu40c4 : UInt32 := 0x40C4
def dpuLutAccessCfg : UInt32 := 0x4100
def dpuLutAccessData : UInt32 := 0x4104
def dpuLutCfg : UInt32 := 0x4108
def dpuLutInfo : UInt32 := 0x410C
def dpuLutLeStart : UInt32 := 0x4110
def dpuLutLeEnd : UInt32 := 0x4114
def dpuLutLoStart : UInt32 := 0x4118
def dpuLutLoEnd : UInt32 := 0x411C
def dpuLutLeSlopeScale : UInt32 := 0x4120
def dpuLutLeSlopeShift : UInt32 := 0x4124
def dpuLutLoSlopeScale : UInt32 := 0x4128
def dpuLutLoSlopeShift : UInt32 := 0x412C

/-! ## Command words -/

/-- `npu_op`: opcode, value and register in one word. -/
def npuOp (op value reg : UInt32) : UInt64 :=
  ((op.toUInt64 &&& 0xFFFF) <<< 48) ||| ((value.toUInt64 &&& 0xFFFFFFFF) <<< 16) ||| reg.toUInt64

/-- One register write, with its value given by fields. -/
structure Command where
  op : UInt32
  reg : UInt32
  fields : List UInt32.Field

def Command.word (c : Command) : UInt64 := npuOp c.op (UInt32.pack c.fields) c.reg

end Rknpu.Task
