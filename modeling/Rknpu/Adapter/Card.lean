import Rknpu.Adapter.Handlers

/-!
# The device nodes

A translation of `drm.rs` and of the `ioctl` of `card0.rs` and `card1.rs`. A command that is not a driver ioctl is
copied into a buffer of 128 bytes on the stack, with the length that the command word gives; what the caller's
structure does not fill stays zero.
-/

namespace Rknpu.Adapter

open Queue Device Service

/-! ## Command words -/

def ioctlNr (cmd : UInt32) : UInt32 := cmd &&& 0xff

def ioctlType (cmd : UInt32) : UInt32 := (cmd >>> 8) &&& 0xff

/-- The 14-bit size field. -/
def ioSize (cmd : UInt32) : UInt32 := (cmd >>> 16) &&& 0x3fff

/-- `b'd'`. -/
def drmIoctlType : UInt32 := 0x64

/-- `b'r'`. -/
def rknpuIoctlType : UInt32 := 0x72

def drmCommandBase : UInt32 := 0x40
def rknpuCommandEnd : UInt32 := 0x09

def isDriverIoctl (cmd : UInt32) : Bool :=
  let nr := ioctlNr cmd
  if ioctlType cmd = rknpuIoctlType then nr < rknpuCommandEnd
  else if ioctlType cmd = drmIoctlType then
    drmCommandBase ≤ nr && nr < drmCommandBase + rknpuCommandEnd
  else false

def maxIoctlNr : UInt32 := 0xcf
def stackDataSize : Nat := 128
def drmIoctlVersionNr : UInt32 := 0
def drmIoctlGetUniqueNr : UInt32 := 1
def drmIoctlGemFlinkNr : UInt32 := 10
def drmIoctlPrimeHandleToFdNr : UInt32 := 0x2d

/-- The buffer on the stack after the copy of `inSize` bytes. -/
def stackData (mem : Memory) (arg : UInt64) (inSize : Nat) : Memory :=
  fun i => if i.toNat < min inSize stackDataSize then mem (arg + i) else 0

/-! ## `DRM_IOCTL_VERSION` -/

structure DrmVersion where
  versionMajor : UInt32
  versionMinor : UInt32
  versionPatchlevel : UInt32
  nameLen : UInt64
  name : UInt64
  dateLen : UInt64
  date : UInt64
  descLen : UInt64
  desc : UInt64

def loadDrmVersion (data : Memory) : DrmVersion where
  versionMajor := data.u32 0
  versionMinor := data.u32 4
  versionPatchlevel := data.u32 8
  nameLen := data.u64 16
  name := data.u64 24
  dateLen := data.u64 32
  date := data.u64 40
  descLen := data.u64 48
  desc := data.u64 56

/-- What a driver says of itself. -/
structure DrmInfo where
  major : UInt32
  minor : UInt32
  patchlevel : UInt32
  name : String
  date : String
  desc : String

/-- How much of a string goes into a buffer of this length. -/
def fieldLength (bufLen : UInt64) (value : String) : Nat := min value.utf8ByteSize bufLen.toNat

/-- The string is a constant, so the test for a null string never succeeds. Returns the new length. -/
def drmCopyField (buf bufLen : UInt64) (value : String) : Ioctl VfsError UInt64 := do
  if 0 < fieldLength bufLen value ∧ buf ≠ 0 then copyToUser buf .value (fieldLength bufLen value)
  return UInt64.ofNat value.utf8ByteSize

def drmVersion (info : DrmInfo) (data : DrmVersion) : Ioctl VfsError DrmVersion := do
  let nameLen ← (drmCopyField data.name data.nameLen info.name).mapError fun _ => .invalidData
  let dateLen ← (drmCopyField data.date data.dateLen info.date).mapError fun _ => .invalidData
  let descLen ← (drmCopyField data.desc data.descLen info.desc).mapError fun _ => .invalidData
  return { data with
    versionMajor := info.major
    versionMinor := info.minor
    versionPatchlevel := info.patchlevel
    nameLen
    dateLen
    descLen }

/-! ## Card 0 -/

namespace Card0

def info : DrmInfo where
  major := 3
  minor := 0
  patchlevel := 0
  name := "rockchip"
  date := "20140818"
  desc := "RockChip Soc DRM"

/-- The copy comes before the command is looked at. -/
def ioctl (mem : Memory) (cmd : UInt32) (arg : UInt64) : Ioctl VfsError Unit := do
  if arg = 0 then .fail .invalidData
  else do
    let inSize := (ioSize cmd).toNat
    copyFromUser .stackData arg inSize
    if isDriverIoctl cmd then panic
    else if maxIoctlNr < ioctlNr cmd then panic
    else if ioctlNr cmd = drmIoctlVersionNr then do
      let _ ← drmVersion info (loadDrmVersion (stackData mem arg inSize))
      copyToUser arg .stackData inSize
    else panic

end Card0

/-! ## Card 1 -/

namespace Card1

def info : DrmInfo where
  major := 0
  minor := 9
  patchlevel := 8
  name := "rknpu"
  date := "20240828"
  desc := "RKNPU driver"

def mapServiceError : RknpuServiceError → VfsError
  | .invalidInput => .invalidInput
  | .invalidData => .invalidData
  | .notFound => .notFound
  | .busy => .addressInUse
  | .interrupted => .interrupted
  | .badIoctl => .badIoctl
  | .driver _ | .internal => .invalidData

def rknpuDriverIoctl (mem : Memory) (op : RknpuCmd) (arg : UInt64) : Ioctl VfsError Unit :=
  (driverIoctl mem arg op).mapError mapServiceError

/-- The DRM commands work on the buffer: `GET_UNIQUE` clears a length, `PRIME_HANDLE_TO_FD` stores a number. -/
def drmIoctl (data : Memory) (nr : UInt32) : Ioctl VfsError Unit := do
  if nr = drmIoctlVersionNr then do
    let _ ← drmVersion info (loadDrmVersion data)
    return ()
  else if nr = drmIoctlGetUniqueNr then return ()
  else if nr = drmIoctlGemFlinkNr then .fail .notFound
  else if nr = drmIoctlPrimeHandleToFdNr then return ()
  else panic

def ioctl (mem : Memory) (cmd : UInt32) (arg : UInt64) : Ioctl VfsError Unit := do
  if arg = 0 then .fail .invalidData
  else if isDriverIoctl cmd then
    match RknpuCmd.tryFrom (ioctlNr cmd) with
    | some op => rknpuDriverIoctl mem op arg
    | none => .fail .badIoctl
  else do
    if maxIoctlNr < ioctlNr cmd then panic
    let inSize := (ioSize cmd).toNat
    copyFromUser .stackData arg inSize
    drmIoctl (stackData mem arg inSize) (ioctlNr cmd)
    copyToUser arg .stackData inSize

end Card1

end Rknpu.Adapter
