import Rknpu.Lib.TreeMap
import Rknpu.Queue.Abi

/-!
# The pool of DMA buffers

A translation of `gem.rs`, of the memory ioctls of `service/ioctl.rs` and of `Card1::mmap`. A buffer is what the
driver reads of a `DVec`; the DMA allocator is outside the repository, so its answer is an argument. Sizes and
addresses are 64 bits wide, as `usize` is on the target.
-/

namespace Rknpu.Device

open Queue

/-- A DMA buffer. -/
structure DVec where
  /-- Which allocation the buffer owns. -/
  block : Nat
  busAddr : UInt64
  ptr : UInt64
  len : UInt64
deriving DecidableEq, Repr

/-! ## Structures shared with userspace -/

structure RknpuMemCreate where
  handle : UInt32
  flags : UInt32
  size : UInt64
  objAddr : UInt64
  dmaAddr : UInt64
  sramSize : UInt64
  iommuDomainId : Int32
  coreMask : UInt32
deriving DecidableEq, Repr, Inhabited

structure RknpuMemMap where
  handle : UInt32
  reserved : UInt32
  offset : UInt64
deriving DecidableEq, Repr

structure RknpuMemDestroy where
  handle : UInt32
  reserved : UInt32
  objAddr : UInt64
deriving DecidableEq, Repr

/-! ## The pool -/

/-- Buffers by handle, and the next handle. -/
structure GemPool where
  pool : Std.ExtTreeMap UInt32 DVec compare
  handleCounter : UInt32

namespace GemPool

def new : GemPool where
  pool := ∅
  handleCounter := 1

/-- `data` is the answer of `DVec::zeros`; without a buffer the `unwrap` panics. The counter wraps, and `insert`
drops what was stored under the handle. -/
def create (g : GemPool) (args : RknpuMemCreate) (data : Option DVec) : Option (RknpuMemCreate × GemPool) :=
  data.map fun data =>
    let handle := g.handleCounter
    ({ args with handle, sramSize := data.len, dmaAddr := data.busAddr, objAddr := data.ptr },
      { pool := g.pool.insert handle data, handleCounter := g.handleCounter + 1 })

def getPhysAddrAndSize (g : GemPool) (handle : UInt32) : Option (UInt64 × UInt64) :=
  g.pool[handle]?.map fun dvec => (dvec.busAddr, dvec.len)

def destroy (g : GemPool) (handle : UInt32) : GemPool :=
  { g with pool := g.pool.erase handle }

/-! ## Ioctls -/

/-- `handle_mem_map_ioctl`: the offset to pass to `mmap`. -/
def memMap (g : GemPool) (args : RknpuMemMap) : Except RknpuError RknpuMemMap :=
  if (g.getPhysAddrAndSize args.handle).isSome then
    .ok { args with offset := args.handle.toUInt64 <<< 12 }
  else .error .invalidHandle

/-- `handle_mem_destroy_ioctl`: an unknown handle is ignored. -/
def memDestroy (g : GemPool) (args : RknpuMemDestroy) : GemPool :=
  if (g.getPhysAddrAndSize args.handle).isNone then g else g.destroy args.handle

end GemPool

/-! ## Mapping a buffer -/

def pageSize : UInt64 := 4096

/-- `align_up` to a page. -/
def alignUp (size : UInt64) : UInt64 := (size + (pageSize - 1)) &&& ~~~(pageSize - 1)

/-- A range of physical addresses, `last` excluded. -/
structure PhysAddrRange where
  start : UInt64
  last : UInt64
deriving DecidableEq, Repr

def PhysAddrRange.Contains (r : PhysAddrRange) (addr : UInt64) : Prop := r.start ≤ addr ∧ addr < r.last

/-- The handle that an offset stands for. -/
def mmapHandle (offset : UInt64) : UInt32 := (offset >>> 12).toUInt32

/-- `Card1::mmap`; `none` is `DeviceMmap::None`. -/
def GemPool.mmap (g : GemPool) (offset : UInt64) : Option PhysAddrRange :=
  (g.getPhysAddrAndSize (mmapHandle offset)).map fun (physAddr, size) =>
    let rangeSize := if size < pageSize then pageSize else alignUp size
    { start := physAddr, last := physAddr + rangeSize }

/-- What `mmap` returns for a buffer. -/
def DVec.pages (data : DVec) : PhysAddrRange where
  start := data.busAddr
  last := data.busAddr + if data.len < pageSize then pageSize else alignUp data.len

theorem GemPool.mmap_eq (g : GemPool) (offset : UInt64) :
    g.mmap offset = g.pool[mmapHandle offset]?.map DVec.pages := by
  rw [GemPool.mmap, GemPool.getPhysAddrAndSize, Option.map_map]
  rfl

/-- The offset that `MEM_MAP` reports leads back to the handle. -/
theorem mmapHandle_shift (handle : UInt32) : mmapHandle (handle.toUInt64 <<< 12) = handle := by
  have hlt := handle.toNat_lt
  apply UInt32.toNat_inj.mp
  simp only [mmapHandle, UInt64.toNat_toUInt32, UInt64.toNat_shiftRight, UInt64.toNat_shiftLeft,
    UInt32.toNat_toUInt64, Nat.shiftLeft_eq, Nat.shiftRight_eq_div_pow]
  have hshift : (12 : UInt64).toNat % 64 = 12 := rfl
  rw [hshift]
  omega

end Rknpu.Device
