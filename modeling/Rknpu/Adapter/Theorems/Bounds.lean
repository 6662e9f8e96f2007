import Rknpu.Adapter.Card

/-!
# The stack buffer and panics

Which calls of the `ioctl` of card 1 stay inside the buffer on the stack and do not panic.
-/

namespace Rknpu.Adapter

open Queue Device Service

/-- A copy that uses the buffer on the stack fits into it, and nothing panics. -/
def InBounds : Request → Prop
  | .copyFromUser .stackData _ size | .copyToUser _ .stackData size => size ≤ stackDataSize
  | .panic => False
  | _ => True

/-- The allocators give what this function says. -/
def grants (alloc : Allocation → Bool) (what : Allocation) (granted : Bool) : Prop := granted = alloc what

/-- A trace query whose `READ` is carried out and asks for some record. -/
def TraceQuery.Reads (query : TraceQuery) (limit : Nat) : Prop :=
  query.operation = traceRead ∧ 0 < query.capacity.toNat ∧ query.capacity.toNat ≤ limit ∧ query.recordsAddress ≠ 0

instance (query : TraceQuery) (limit : Nat) : Decidable (query.Reads limit) := by
  unfold TraceQuery.Reads
  infer_instance

/-- What a driver ioctl allocates without a way to report that it cannot. -/
def allocations (mem : Memory) (arg : UInt64) : RknpuCmd → List Allocation
  | .submit =>
      let submit := loadSubmit mem arg
      if checkSubmit submit = .ok () then [.vec (submit.taskNumber.toNat * sizeofTask), .nodes] else []
  | .memCreate => [.dma (loadMemCreate mem arg).size, .nodes]
  | .submitTrace =>
      let query := loadSubmitTraceQuery mem arg
      if query.Reads submitTraceCapacity then [.vec (query.capacity.toNat * sizeofSubmitTraceRecord)] else []
  | .scheduleTrace =>
      let query := loadScheduleTraceQuery mem arg
      if query.operation = traceReset ∧ query.eventMask &&& ~~~scheduleEventAll = 0 ∧ query.eventMask ≠ 0 then
        [.vec (scheduleTraceCapacity * sizeofScheduleTraceRecord)]
      else if query.Reads scheduleTraceCapacity then [.vec (query.capacity.toNat * sizeofScheduleTraceRecord)]
      else []
  | _ => []

variable {mem : Memory} {arg : UInt64} {alloc : Allocation → Bool}

theorem taskBytes_ne_zero {submit : RknpuSubmit} (h : checkSubmit submit = .ok ()) :
    submit.taskNumber.toNat * sizeofTask ≠ 0 := by
  have haccepted : Accepted submit (List.replicate submit.taskNumber.toNat default) := ⟨h, List.length_replicate ..⟩
  have hne := haccepted.taskNumber_ne_zero
  rw [ne_eq, ← UInt32.toNat_inj] at hne
  simp only [sizeofTask]
  change submit.taskNumber.toNat ≠ 0 at hne
  omega

theorem inBounds_handleSubmitIoctl : (handleSubmitIoctl mem arg).Calls (Possible (grants alloc)) InBounds ↔
    ∀ what ∈ allocations mem arg .submit, alloc what = true := by
  simp only [handleSubmitIoctl, allocations]
  generalize loadSubmit mem arg = submit
  cases hcheck : checkSubmit submit with
  | error err => simp [InBounds]
  | ok =>
      have hbytes := taskBytes_ne_zero hcheck
      simp [InBounds, grants, hbytes]
      exact Or.inl

theorem inBounds_handleMemCreateIoctl : (handleMemCreateIoctl mem arg).Calls (Possible (grants alloc)) InBounds ↔
    ∀ what ∈ allocations mem arg .memCreate, alloc what = true := by
  simp only [handleMemCreateIoctl, allocations, GemPool.create]
  generalize loadMemCreate mem arg = args
  simp [InBounds, grants]
  constructor
  · intro h
    -- The device can be locked in any state, and the allocator answers with some buffer if with any.
    cases hdma : alloc (.dma args.size) with
    | false => exact ((h (RknpuDev.new 0 .new3588) none hdma.symm).1 rfl).elim
    | true => exact ⟨rfl, (h (RknpuDev.new 0 .new3588) (some ⟨0, 0, 0, 0⟩) hdma.symm).2 _ rfl⟩
  · rintro ⟨hdma, hnodes⟩ _ data hdata
    rw [hdma, Option.isSome_iff_ne_none] at hdata
    exact ⟨hdata, fun _ _ => hnodes⟩

/-- The copy of the records is not into the buffer on the stack. -/
theorem inBounds_readTrace {limit recordSize : Nat} {snapshot : Nat → Ioctl RknpuServiceError Nat}
    {query : TraceQuery} : (readTrace limit recordSize snapshot query).Calls (Possible (grants alloc)) InBounds ↔
    (query.capacity.toNat ≤ limit → (0 < query.capacity.toNat → query.recordsAddress ≠ 0) →
      (snapshot query.capacity.toNat).Calls (Possible (grants alloc)) InBounds) := by
  simp [readTrace, InBounds]

theorem inBounds_snapshotWithCapacity {kind : TraceKind} {recordSize capacity : Nat} :
    (snapshotWithCapacity kind recordSize capacity).Calls (Possible (grants alloc)) InBounds ↔
      (capacity * recordSize ≠ 0 → alloc (.vec (capacity * recordSize)) = true) := by
  simp [snapshotWithCapacity, InBounds, grants]

theorem inBounds_handleSubmitTraceIoctl : (handleSubmitTraceIoctl mem arg).Calls (Possible (grants alloc)) InBounds ↔
    ∀ what ∈ allocations mem arg .submitTrace, alloc what = true := by
  simp only [handleSubmitTraceIoctl, allocations]
  generalize loadSubmitTraceQuery mem arg = query
  have hread : traceRead ≠ traceReset := by decide
  have hsize : sizeofSubmitTraceRecord ≠ 0 := by decide
  simp [InBounds, inBounds_readTrace, snapshotSubmitTrace, inBounds_snapshotWithCapacity, TraceQuery.Reads]
  grind

theorem inBounds_handleScheduleTraceIoctl :
    (handleScheduleTraceIoctl mem arg).Calls (Possible (grants alloc)) InBounds ↔
      ∀ what ∈ allocations mem arg .scheduleTrace, alloc what = true := by
  simp only [handleScheduleTraceIoctl, allocations]
  generalize loadScheduleTraceQuery mem arg = query
  have hread : traceRead ≠ traceReset := by decide
  have hsize : sizeofScheduleTraceRecord ≠ 0 := by decide
  have hcapacity : scheduleTraceCapacity ≠ 0 := by decide
  simp [InBounds, inBounds_readTrace, snapshotScheduleTrace, inBounds_snapshotWithCapacity, TraceQuery.Reads,
    configureScheduleTrace, readSchedulerState, grants]
  grind

theorem inBounds_handleWorkerYieldTraceIoctl :
    (handleWorkerYieldTraceIoctl mem arg).Calls (Possible (grants alloc)) InBounds := by
  simp [handleWorkerYieldTraceIoctl, InBounds, inBounds_readTrace, snapshotWorkerYieldTrace, configureWorkerYieldTrace]

theorem inBounds_handleActionIoctl : (handleActionIoctl mem arg).Calls (Possible (grants alloc)) InBounds := by
  simp only [handleActionIoctl]
  cases RknpuAction.tryFrom (mem.u32 arg) with
  | none => simp [InBounds]
  | some action => simp [InBounds]

/-- A driver ioctl does not use the buffer on the stack, and panics only when an allocation fails. -/
theorem inBounds_driverIoctl (op : RknpuCmd) : (driverIoctl mem arg op).Calls (Possible (grants alloc)) InBounds ↔
    ∀ what ∈ allocations mem arg op, alloc what = true := by
  cases op with
  | submit => exact inBounds_handleSubmitIoctl
  | memCreate => exact inBounds_handleMemCreateIoctl
  | submitTrace => exact inBounds_handleSubmitTraceIoctl
  | scheduleTrace => exact inBounds_handleScheduleTraceIoctl
  | action => simpa [driverIoctl, allocations] using inBounds_handleActionIoctl
  | workerYieldTrace => simpa [driverIoctl, allocations] using inBounds_handleWorkerYieldTraceIoctl
  | memMap => simp [driverIoctl, handleMemMapIoctl, allocations, InBounds]
  | memDestroy => simp [driverIoctl, handleMemDestroyIoctl, allocations, InBounds]
  | memSync => simp [driverIoctl, handleMemSyncIoctl, allocations, InBounds]

theorem inBounds_drmVersion {info : DrmInfo} {data : DrmVersion} :
    (drmVersion info data).Calls (Possible (grants alloc)) InBounds := by
  simp [drmVersion, drmCopyField, InBounds]

/-- The commands that card 1 knows beside the driver ioctls. -/
def drmIoctls : List UInt32 :=
  [drmIoctlVersionNr, drmIoctlGetUniqueNr, drmIoctlGemFlinkNr, drmIoctlPrimeHandleToFdNr]

theorem inBounds_drmIoctl {data : Memory} {nr : UInt32} :
    (Card1.drmIoctl data nr).Calls (Possible (grants alloc)) InBounds ↔ nr ∈ drmIoctls := by
  simp [Card1.drmIoctl, inBounds_drmVersion, drmIoctls, InBounds]
  tauto

/-- The `ioctl` of card 1 with an argument stays inside its buffer and does not panic exactly when it is a driver ioctl
whose allocations succeed, or one of the four DRM commands with a size of at most 128. -/
theorem card1_ioctl_inBounds_iff (mem : Memory) (cmd : UInt32) {arg : UInt64} (harg : arg ≠ 0)
    (alloc : Allocation → Bool) :
    (Card1.ioctl mem cmd arg).Calls (Possible (grants alloc)) InBounds ↔
      if isDriverIoctl cmd then
        ∀ op, RknpuCmd.tryFrom (ioctlNr cmd) = some op → ∀ what ∈ allocations mem arg op, alloc what = true
      else (ioSize cmd).toNat ≤ stackDataSize ∧ ioctlNr cmd ∈ drmIoctls := by
  simp only [Card1.ioctl, if_neg harg]
  cases isDriverIoctl cmd with
  | true =>
      cases RknpuCmd.tryFrom (ioctlNr cmd) with
      | none => simp
      | some op => simp [Card1.rknpuDriverIoctl, inBounds_driverIoctl]
  | false =>
      have hmax : ioctlNr cmd ∈ drmIoctls → ioctlNr cmd ≤ maxIoctlNr := by
        simp [drmIoctls]
        rintro (h | h | h | h) <;> rw [h] <;> decide
      simp [inBounds_drmIoctl, InBounds]
      grind

/-- `DRM_IOCTL_VERSION` with the structure's own size. -/
theorem card1_ioctl_inBounds_version :
    (Card1.ioctl (fun _ => 0) 0xc0406400 0x1000).Calls (Possible (grants fun _ => true)) InBounds :=
  (card1_ioctl_inBounds_iff (fun _ => 0) 0xc0406400 (by decide) fun _ => true).mpr (by decide)

/-- `DRM_IOCTL_VERSION` with all bits of the size field set copies 16383 bytes into the buffer, and an unknown command
number panics. -/
theorem card1_ioctl_overflows_and_panics :
    ¬ (Card1.ioctl (fun _ => 0) 0xffff6400 0x1000).Calls (Possible (grants fun _ => true))
      (· ≠ .copyFromUser .stackData 0x1000 16383) ∧
    ¬ (Card1.ioctl (fun _ => 0) 0xc0406402 0x1000).Calls (Possible (grants fun _ => true)) (· ≠ .panic) := by
  constructor
  · have hdriver : isDriverIoctl 0xffff6400 = false := by decide
    have hnr : ¬ maxIoctlNr < ioctlNr 0xffff6400 := by decide
    have hsize : (ioSize 0xffff6400).toNat = 16383 := by decide
    simp [Card1.ioctl, hdriver, hnr, hsize]
  · have hdriver : isDriverIoctl 0xc0406402 = false := by decide
    have hnr : ioctlNr 0xc0406402 = 2 := by decide
    simp [Card1.ioctl, Card1.drmIoctl, hdriver, hnr]
    exact fun h => ⟨h, fun _ => by decide⟩

end Rknpu.Adapter
