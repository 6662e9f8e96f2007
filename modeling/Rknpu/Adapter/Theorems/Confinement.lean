import Rknpu.Adapter.Theorems.Bounds

/-!
# User pointers

Which calls of the two device nodes touch user addresses only. The driver's copies do not check the range they are
given; the kernel's own `check_access` is translated here as the condition under which they stay inside.
-/

namespace Rknpu.Adapter

open Queue Device Service

/-! ## The user address range -/

def userSpaceBase : Nat := 0x1000
def userSpaceSize : Nat := 0x7ffffffff000

def InUserSpace (addr : UInt64) : Prop := userSpaceBase ≤ addr.toNat ∧ addr.toNat < userSpaceBase + userSpaceSize

/-- Every byte of the range is a user address. Addresses wrap. -/
def Inside (addr : UInt64) (size : Nat) : Prop := ∀ i < size, InUserSpace (addr + UInt64.ofNat i)

/-- `check_access` of the kernel. -/
def checkAccess (start : UInt64) (len : Nat) : Bool :=
  userSpaceBase ≤ start.toNat && start.toNat < userSpaceBase + userSpaceSize &&
    len ≤ userSpaceBase + userSpaceSize - start.toNat

theorem Inside.mono {addr : UInt64} {size size' : Nat} (h : Inside addr size) (hle : size' ≤ size) :
    Inside addr size' := fun i hi => h i (lt_of_lt_of_le hi hle)

/-- The check of the kernel is exact for ranges that are not empty. -/
theorem inside_iff {addr : UInt64} {size : Nat} : Inside addr size ↔ size = 0 ∨ checkAccess addr size = true := by
  have haddr : ∀ i, (addr + UInt64.ofNat i).toNat = (addr.toNat + i) % 2 ^ 64 := by
    intro i
    rw [UInt64.toNat_add, UInt64.toNat_ofNat', Nat.add_mod_mod]
  simp only [checkAccess, Bool.and_eq_true, decide_eq_true_eq]
  constructor
  · intro h
    by_cases hsize : size = 0
    · exact .inl hsize
    · have hfirst := h 0 (Nat.pos_of_ne_zero hsize)
      simp only [InUserSpace, haddr 0, userSpaceBase, userSpaceSize] at hfirst ⊢
      have hlt := addr.toNat_lt
      refine .inr ⟨⟨by omega, by omega⟩, ?_⟩
      -- Otherwise the first byte past the range would be among those that are touched.
      by_contra hlong
      have hlast := h (0x1000 + 0x7ffffffff000 - addr.toNat) (by omega)
      rw [InUserSpace, haddr] at hlast
      simp only [userSpaceBase, userSpaceSize] at hlast
      omega
  · rintro (rfl | ⟨⟨hbase, hend⟩, hlen⟩) i hi
    · omega
    · simp only [userSpaceBase, userSpaceSize] at hbase hend hlen
      simp only [InUserSpace, userSpaceBase, userSpaceSize]
      rw [haddr i, Nat.mod_eq_of_lt (by omega)]
      omega

/-! ## The ranges that a call names -/

/-- The user side of every copy is inside the user address range. -/
def Confined : Request → Prop
  | .copyFromUser _ addr size | .copyToUser addr _ size => Inside addr size
  | _ => True

def driverRanges (mem : Memory) (arg : UInt64) : RknpuCmd → List (UInt64 × Nat)
  | .submit =>
      let submit := loadSubmit mem arg
      (arg, sizeofSubmit) ::
        if checkSubmit submit = .ok () then [(submit.taskArrayCpuAddress, submit.taskNumber.toNat * sizeofTask)] else []
  | .memCreate => [(arg, sizeofMemCreate)]
  | .memMap => [(arg, sizeofMemMap)]
  | .memDestroy => [(arg, sizeofMemDestroy)]
  | .memSync => [(arg, sizeofMemSync)]
  | .action => [(arg, sizeofUserAction)]
  | .submitTrace =>
      let query := loadSubmitTraceQuery mem arg
      (arg, sizeofSubmitTraceQuery) ::
        if query.Reads submitTraceCapacity then
          [(query.recordsAddress, query.capacity.toNat * sizeofSubmitTraceRecord)] else []
  | .workerYieldTrace =>
      let query := loadWorkerYieldTraceQuery mem arg
      (arg, sizeofWorkerYieldTraceQuery) ::
        if query.reserved = 0 ∧ query.Reads workerYieldTraceMaxCapacity then
          [(query.recordsAddress, query.capacity.toNat * sizeofWorkerYieldTraceRecord)] else []
  | .scheduleTrace =>
      let query := loadScheduleTraceQuery mem arg
      (arg, sizeofScheduleTraceQuery) ::
        if query.Reads scheduleTraceCapacity then
          [(query.recordsAddress, query.capacity.toNat * sizeofScheduleTraceRecord)]
        else if query.operation = traceState ∧ query.stateAddress ≠ 0 then
          [(query.stateAddress, sizeofSchedulerStateSnapshot)]
        else []

/-- The buffers for the three strings, without null pointers. -/
def drmRanges (info : DrmInfo) (data : DrmVersion) : List (UInt64 × Nat) :=
  [(data.name, fieldLength data.nameLen info.name), (data.date, fieldLength data.dateLen info.date),
    (data.desc, fieldLength data.descLen info.desc)].filter (·.1 ≠ 0)

inductive Card where
  | card0
  | card1

def Card.ioctl (mem : Memory) (cmd : UInt32) (arg : UInt64) : Card → Ioctl VfsError Unit
  | .card0 => Card0.ioctl mem cmd arg
  | .card1 => Card1.ioctl mem cmd arg

/-- The address ranges that a call passes to the driver: its argument, and what the structures there point to. -/
def Card.userRanges (mem : Memory) (cmd : UInt32) (arg : UInt64) : Card → List (UInt64 × Nat)
  | .card0 =>
      if arg = 0 then []
      else (arg, (ioSize cmd).toNat) ::
        if isDriverIoctl cmd = false ∧ ioctlNr cmd = drmIoctlVersionNr then
          drmRanges Card0.info (loadDrmVersion (stackData mem arg (ioSize cmd).toNat)) else []
  | .card1 =>
      if arg = 0 then []
      else if isDriverIoctl cmd then
        match RknpuCmd.tryFrom (ioctlNr cmd) with
        | some op => driverRanges mem arg op
        | none => []
      else if maxIoctlNr < ioctlNr cmd then []
      else (arg, (ioSize cmd).toNat) ::
        if ioctlNr cmd = drmIoctlVersionNr then
          drmRanges Card1.info (loadDrmVersion (stackData mem arg (ioSize cmd).toNat)) else []

/-! ## Handler by handler -/

/-- Allocations may succeed or fail. -/
def anyHeap (_ : Allocation) (_ : Bool) : Prop := True

variable {mem : Memory} {arg : UInt64}

theorem confined_readTrace {l n : Nat} {snapshot : Nat → Ioctl RknpuServiceError Nat} {query : TraceQuery}
    (hsize : n ≠ 0) (hcalls : ∀ capacity, (snapshot capacity).Calls (Possible anyHeap) Confined)
    (hreturns : ∀ capacity count, (snapshot capacity).Returns (Possible anyHeap) count ↔ count ≤ capacity)
    (hread : query.operation = traceRead) :
    (readTrace l n snapshot query).Calls (Possible anyHeap) Confined ↔
      (query.Reads l → Inside query.recordsAddress (query.capacity.toNat * n)) := by
  simp [readTrace, hcalls, hreturns, Confined, TraceQuery.Reads, hread]
  constructor
  · intro h hpos hle hne
    exact h hle (fun _ => hne) _ le_rfl hpos (Nat.pos_of_ne_zero hsize)
  · intro h hle hne count hcount hpos _
    exact (h (by omega) hle (hne (by omega))).mono (Nat.mul_le_mul_right _ hcount)

theorem confined_snapshotWithCapacity (kind : TraceKind) (recordSize capacity : Nat) :
    (snapshotWithCapacity kind recordSize capacity).Calls (Possible anyHeap) Confined := by
  simp [snapshotWithCapacity, Confined]

theorem returns_snapshotWithCapacity (kind : TraceKind) (recordSize capacity count : Nat) :
    (snapshotWithCapacity kind recordSize capacity).Returns (Possible anyHeap) count ↔ count ≤ capacity := by
  simp [snapshotWithCapacity, anyHeap]

theorem confined_snapshotWorkerYieldTrace (capacity : Nat) :
    (snapshotWorkerYieldTrace capacity).Calls (Possible anyHeap) Confined := by
  simp [snapshotWorkerYieldTrace, Confined]

theorem returns_snapshotWorkerYieldTrace (capacity count : Nat) :
    (snapshotWorkerYieldTrace capacity).Returns (Possible anyHeap) count ↔ count ≤ capacity := by
  simp [snapshotWorkerYieldTrace, anyHeap]
  constructor
  · rintro ⟨_, _, h, _⟩
    exact h
  · intro h
    exact ⟨count, h, h, le_rfl⟩

theorem confined_driverIoctl (op : RknpuCmd) : (driverIoctl mem arg op).Calls (Possible anyHeap) Confined ↔
    ∀ r ∈ driverRanges mem arg op, Inside r.1 r.2 := by
  have hread : traceRead ≠ traceReset := by decide
  have hstate : traceState ≠ traceReset ∧ traceState ≠ traceRead := by decide
  cases op with
  | submit =>
      simp only [driverIoctl, handleSubmitIoctl, driverRanges]
      generalize loadSubmit mem arg = submit
      cases hcheck : checkSubmit submit with
      | error err => simp [Confined]
      | ok => simp [Confined, anyHeap]; tauto
  | memCreate => simp [driverIoctl, handleMemCreateIoctl, driverRanges, Confined]; tauto
  | memMap => simp [driverIoctl, handleMemMapIoctl, driverRanges, Confined]; tauto
  | memDestroy => simp [driverIoctl, handleMemDestroyIoctl, driverRanges, Confined]
  | memSync => simp [driverIoctl, handleMemSyncIoctl, driverRanges, Confined]
  | action =>
      simp only [driverIoctl, handleActionIoctl, driverRanges]
      cases RknpuAction.tryFrom (mem.u32 arg) with
      | none => simp [Confined]
      | some action => simp [Confined]; tauto
  | submitTrace =>
      simp only [driverIoctl, handleSubmitTraceIoctl, driverRanges]
      generalize loadSubmitTraceQuery mem arg = query
      by_cases hop : query.operation = traceRead
      · have hrecords := confined_readTrace (l := submitTraceCapacity) (n := sizeofSubmitTraceRecord) (by decide)
          (confined_snapshotWithCapacity .submit sizeofSubmitTraceRecord) (returns_snapshotWithCapacity _ _) hop
        have hsnapshot : snapshotSubmitTrace = snapshotWithCapacity .submit sizeofSubmitTraceRecord := rfl
        simp [Confined, hsnapshot, hop, hread, hrecords]
        tauto
      · have hno : ¬ query.Reads submitTraceCapacity := fun h => hop h.1
        simp [Confined, hop, hno]
        tauto
  | workerYieldTrace =>
      simp only [driverIoctl, handleWorkerYieldTraceIoctl, driverRanges]
      generalize loadWorkerYieldTraceQuery mem arg = query
      by_cases hop : query.operation = traceRead
      · have hrecords := confined_readTrace (l := workerYieldTraceMaxCapacity) (n := sizeofWorkerYieldTraceRecord)
          (by decide) confined_snapshotWorkerYieldTrace returns_snapshotWorkerYieldTrace hop
        simp [Confined, hop, hread, hrecords]
        grind
      · have hno : ¬ query.Reads workerYieldTraceMaxCapacity := fun h => hop h.1
        simp [Confined, hop, hno, configureWorkerYieldTrace]
        tauto
  | scheduleTrace =>
      simp only [driverIoctl, handleScheduleTraceIoctl, driverRanges]
      generalize loadScheduleTraceQuery mem arg = query
      by_cases hop : query.operation = traceRead
      · have hrecords := confined_readTrace (l := scheduleTraceCapacity) (n := sizeofScheduleTraceRecord) (by decide)
          (confined_snapshotWithCapacity .schedule sizeofScheduleTraceRecord) (returns_snapshotWithCapacity _ _) hop
        have hsnapshot : snapshotScheduleTrace = snapshotWithCapacity .schedule sizeofScheduleTraceRecord := rfl
        simp [Confined, hsnapshot, hop, hread, hrecords, hstate.2.symm]
        grind
      · have hno : ¬ query.Reads scheduleTraceCapacity := fun h => hop h.1
        by_cases hop' : query.operation = traceState
        · have : Nonempty RknpuDev := ⟨RknpuDev.new 0 RknpuData.new3588⟩
          simp [Confined, hno, hop', hstate, readSchedulerState]
          tauto
        · simp [Confined, hop, hno, hop', configureScheduleTrace]
          tauto

theorem confined_drmCopyField {buf bufLen : UInt64} {value : String} :
    (drmCopyField buf bufLen value).Calls (Possible anyHeap) Confined ↔
      (buf ≠ 0 → Inside buf (fieldLength bufLen value)) := by
  have hempty : fieldLength bufLen value = 0 → Inside buf (fieldLength bufLen value) := by simp +contextual [Inside]
  simp only [drmCopyField, Prog.calls_bind, Prog.calls_ite, calls_copyToUser, Prog.calls_pure, Confined]
  grind

theorem returns_drmCopyField {buf bufLen : UInt64} {value : String} {len : UInt64} :
    (drmCopyField buf bufLen value).Returns (Possible anyHeap) len ↔ len = UInt64.ofNat value.utf8ByteSize := by
  simp only [drmCopyField]
  split <;> simp [eq_comm]

theorem confined_drmVersion {info : DrmInfo} {data : DrmVersion} :
    (drmVersion info data).Calls (Possible anyHeap) Confined ↔ ∀ r ∈ drmRanges info data, Inside r.1 r.2 := by
  simp [drmVersion, drmRanges, confined_drmCopyField, returns_drmCopyField]

/-- A call touches user addresses only, however it runs, exactly when the kernel's check accepts every range that the
call names. -/
theorem card_ioctl_confined_iff (card : Card) (mem : Memory) (cmd : UInt32) (arg : UInt64) :
    (card.ioctl mem cmd arg).Calls (Possible anyHeap) Confined ↔
      ∀ r ∈ card.userRanges mem cmd arg, r.2 = 0 ∨ checkAccess r.1 r.2 = true := by
  simp only [← inside_iff]
  by_cases harg : arg = 0
  · cases card <;> simp [Card.ioctl, Card0.ioctl, Card1.ioctl, Card.userRanges, harg]
  have hversion : drmIoctlVersionNr ≤ maxIoctlNr := by decide
  cases card with
  | card0 =>
    simp [Card.ioctl, Card0.ioctl, Card.userRanges, Confined, confined_drmVersion, harg]
    grind
  | card1 =>
    by_cases hdriver : isDriverIoctl cmd = true
    · simp only [Card.ioctl, Card1.ioctl, Card.userRanges, harg, hdriver, if_true, if_false]
      cases RknpuCmd.tryFrom (ioctlNr cmd) with
      | none => simp
      | some op => simp [Card1.rknpuDriverIoctl, confined_driverIoctl]
    · by_cases hnr : maxIoctlNr < ioctlNr cmd
      · simp [Card.ioctl, Card1.ioctl, Card.userRanges, Confined, harg, hdriver, hnr]
      · simp [Card.ioctl, Card1.ioctl, Card1.drmIoctl, Card.userRanges, Confined, confined_drmVersion, harg, hdriver, hnr]
        grind

/-- `DRM_IOCTL_VERSION` with a kernel address: the structure is read from there and written back. -/
theorem card1_ioctl_touches_kernel_address :
    ¬ (Card.card1.ioctl (fun _ => 0) 0xc0406400 0xffff000000000000).Calls (Possible anyHeap) Confined := by
  have hdriver : isDriverIoctl 0xc0406400 = false := by decide
  have hnr : ¬ maxIoctlNr < ioctlNr 0xc0406400 := by decide
  have hsize : (ioSize 0xc0406400).toNat = 64 := by decide
  have hkernel : ¬ Inside 0xffff000000000000 64 := by
    simp only [inside_iff]
    decide
  simp [Card.ioctl, Card1.ioctl, Confined, hdriver, hnr, hsize, hkernel]

end Rknpu.Adapter
