import Rknpu.Lib.Fields
import Rknpu.Lib.Machine

/-!
# SCMI transfers

The message headers and the transfer tokens of `arm-scmi/src/protocol/mod.rs`. A result of `none` is a panic: an index
out of bounds, or a token that could not be allocated.
-/

namespace Rknpu.Scmi

/-! ## Headers -/

def genmask (high low : UInt32) : UInt32 :=
  if 32 ≤ high ∨ 32 ≤ low ∨ high < low then 0
  else
    let all : UInt32 := 0xFFFFFFFF
    let upper := all >>> (31 - high)
    let lower := all <<< low
    upper &&& lower

def trailingZeros (w : UInt32) : UInt32 :=
  UInt32.ofNat (((List.range 32).find? fun i => w.toNat.testBit i).getD 32)

def maskToMax (mask : UInt32) : UInt32 := if mask = 0 then 0 else mask >>> trailingZeros mask

def msgIdMask : UInt32 := genmask 7 0
def msgTypeMask : UInt32 := genmask 9 8
def msgProtocolIdMask : UInt32 := genmask 17 10
def msgTokenIdMask : UInt32 := genmask 27 18
def msgTokenMax : Nat := (maskToMax msgTokenIdMask).toNat + 1

def fieldPrep (mask value : UInt32) : UInt32 :=
  let shift := trailingZeros mask
  ((value &&& (mask >>> shift)) <<< shift) &&& mask

inductive MsgType where
  | command
  | delayedResponse
  | notification
deriving DecidableEq, Repr

def MsgType.toUInt32 : MsgType → UInt32
  | .command => 0
  | .delayedResponse => 2
  | .notification => 3

structure MsgHeader where
  id : UInt8 := 0
  protocolId : UInt8 := 0
  type : MsgType := .command
  seq : UInt16 := 0
  status : UInt32 := 0
  pollCompletion : Bool := false
deriving DecidableEq, Repr

def MsgHeader.pack (h : MsgHeader) : UInt32 :=
  fieldPrep msgIdMask h.id.toUInt32 ||| fieldPrep msgTypeMask h.type.toUInt32 |||
    fieldPrep msgTokenIdMask h.seq.toUInt32 ||| fieldPrep msgProtocolIdMask h.protocolId.toUInt32

/-- The token field of a packed header. -/
def packedToken (w : UInt32) : UInt32 := (w &&& msgTokenIdMask) >>> trailingZeros msgTokenIdMask

/-! ## Tokens -/

def tokensPerWord : Nat := 32
def tokenTableWords : Nat := (msgTokenMax + tokensPerWord - 1) / tokensPerWord

structure TokenTable where
  bitmap : Vector UInt32 tokenTableWords
deriving DecidableEq, Repr

namespace TokenTable

def new : TokenTable where
  bitmap := Vector.replicate tokenTableWords 0

def isTokenNotUsed (t : TokenTable) (token : UInt16) : Option Bool :=
  let wordIdx := token / UInt16.ofNat tokensPerWord
  let bitIdx := token % UInt16.ofNat tokensPerWord
  let mask := (1 : UInt32) <<< bitIdx.toUInt32
  t.bitmap[wordIdx.toNat]?.map fun word => word &&& mask == 0

/-- The inner option is the result; the table is only read. -/
def alloc (t : TokenTable) (base : Int32) : Option (Option UInt16) :=
  let base := base.toUInt32.toUInt16
  (t.isTokenNotUsed base).bind fun free =>
    if free then some (some base)
    else ((List.range msgTokenMax).map UInt16.ofNat).findM? t.isTokenNotUsed

theorem word_lt {token : Nat} (h : ¬ msgTokenMax ≤ token) : token / tokensPerWord < tokenTableWords := by
  have hmax : msgTokenMax = 1024 := by decide
  rw [Nat.div_lt_iff_lt_mul (by decide)]
  change token < 1024
  omega

def release (t : TokenTable) (token : UInt16) : TokenTable :=
  let token := token.toNat
  if h : msgTokenMax ≤ token then t
  else
    let wordIdx := token / tokensPerWord
    let bitIdx := token % tokensPerWord
    let mask := ~~~((1 : UInt32) <<< UInt32.ofNat bitIdx)
    have hlt : wordIdx < tokenTableWords := word_lt h
    { bitmap := t.bitmap.set wordIdx (t.bitmap[wordIdx] &&& mask) }

end TokenTable

/-! ## Transfers -/

inductive XferStatus where
  | init
  | sendOk
  | respOk
deriving DecidableEq, Repr

structure Xfer where
  transferId : Int32
  hdr : MsgHeader
  tx : List UInt8
  rx : List UInt8
  pending : Bool
  status : XferStatus
deriving DecidableEq, Repr

/-- `TRANSFER_ID_COUNTER` and `TOKEN_ALLOCATOR`. -/
structure Globals where
  transferIdCounter : Int32
  tokenAllocator : TokenTable
deriving DecidableEq, Repr

def Globals.init : Globals where
  transferIdCounter := 0
  tokenAllocator := .new

namespace Xfer

def new (g : Globals) (msgId : UInt8) (rxSize : Nat) : Option (Xfer × Globals) :=
  let transferId := g.transferIdCounter
  match g.tokenAllocator.alloc transferId with
  | some (some token) =>
      some ({ transferId
              hdr := { id := msgId, seq := token }
              tx := []
              rx := List.replicate rxSize 0
              pending := false
              status := .sendOk },
        { g with transferIdCounter := transferId + 1 })
  | _ => none

def token (x : Xfer) : UInt16 := x.hdr.seq

def drop (g : Globals) (x : Xfer) : Globals :=
  { g with tokenAllocator := g.tokenAllocator.release x.hdr.seq }

end Xfer

/-! ## Runs -/

inductive XferAct where
  | new (msgId : UInt8) (rxSize : Nat)
  /-- Drop one of the live transfers. -/
  | drop (i : Nat)
deriving DecidableEq, Repr

structure Transfers where
  globals : Globals
  live : List Xfer

def Transfers.step (t : Transfers) : XferAct → Option Transfers
  | .new msgId rxSize => (Xfer.new t.globals msgId rxSize).map fun (x, globals) => { globals, live := t.live ++ [x] }
  | .drop i => t.live[i]?.map fun x => { globals := Xfer.drop t.globals x, live := t.live.eraseIdx i }

def transfers : Machine Transfers XferAct := ⟨⟨.init, []⟩, Transfers.step⟩

end Rknpu.Scmi
