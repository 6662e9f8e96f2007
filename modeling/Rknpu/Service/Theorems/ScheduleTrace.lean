import Rknpu.Service.ScheduleTrace

/-!
# The schedule trace loses nothing silently

Events can be lost behind the mask, in a full buffer and in a small array of the reader. A read gives the first of the
events that match the mask of the last reset, numbered from zero, and says whether they are all of them.
-/

namespace Rknpu.Service

/-! ## What was asked and pushed -/

/-- An event that some thread records, or a call of the ioctl. -/
inductive TraceOp where
  | push (record : RknpuScheduleTraceRecord)
  | ioctl (query : RknpuScheduleTraceQuery) (answers : TraceAnswers)

def ScheduleTrace.op (t : ScheduleTrace) : TraceOp → ScheduleTrace
  | .push record => t.recordScheduleEvent record
  | .ioctl query answers => (handleScheduleTraceIoctl t query answers).2

def ScheduleTrace.run (ops : List TraceOp) : ScheduleTrace := ops.foldl .op .new

/-- A query that starts a new window. -/
def RknpuScheduleTraceQuery.Resets (query : RknpuScheduleTraceQuery) : Prop :=
  query.operation = rknpuScheduleTraceConfigReset ∧ query.eventMask &&& ~~~rknpuScheduleEventAll = 0

instance (query : RknpuScheduleTraceQuery) : Decidable query.Resets := inferInstanceAs (Decidable (_ ∧ _))

/-- The mask of the last reset and the events pushed since. -/
structure TraceWindow where
  mask : UInt32
  pushed : List RknpuScheduleTraceRecord

namespace TraceWindow

def op (w : TraceWindow) : TraceOp → TraceWindow
  | .push record => { w with pushed := w.pushed ++ [record] }
  | .ioctl query _ => if query.Resets then ⟨query.eventMask, []⟩ else w

def run (ops : List TraceOp) : TraceWindow := ops.foldl op ⟨0, []⟩

/-- The events that the mask asks for. -/
def matching (w : TraceWindow) : List RknpuScheduleTraceRecord :=
  w.pushed.filter fun record => w.mask &&& record.eventType ≠ 0

end TraceWindow

/-- Records with the numbers 0, 1, 2 and so on. -/
def numbered (records : List RknpuScheduleTraceRecord) : List RknpuScheduleTraceRecord :=
  records.mapIdx fun i record => { record with sequence := UInt64.ofNat i }

theorem numbered_append_singleton (records : List RknpuScheduleTraceRecord) (record : RknpuScheduleTraceRecord) :
    numbered (records ++ [record]) = numbered records ++ [{ record with sequence := UInt64.ofNat records.length }] :=
  List.mapIdx_concat

theorem length_numbered (records : List RknpuScheduleTraceRecord) : (numbered records).length = records.length :=
  List.length_mapIdx

theorem numbered_take (records : List RknpuScheduleTraceRecord) (n : Nat) :
    (numbered records).take n = numbered (records.take n) := by
  apply List.ext_getElem?
  intro i
  simp only [numbered, List.getElem?_take, List.getElem?_mapIdx]
  split <;> rfl

/-! ## The buffer follows the window -/

/-- The trace holds what its window asks for, as far as there is room. -/
structure ScheduleTrace.Holds (t : ScheduleTrace) (w : TraceWindow) : Prop where
  mask : t.buffer.eventMask = w.mask
  enabled : t.enabled = true ↔ w.mask ≠ 0
  keeps : t.buffer.log.Keeps rknpuScheduleTraceCapacity (numbered w.matching)
  next : w.matching.length ≤ rknpuScheduleTraceCapacity → t.buffer.nextSequence = UInt64.ofNat w.matching.length

namespace ScheduleTrace.Holds

variable {t : ScheduleTrace} {w : TraceWindow}

theorem new : ScheduleTrace.new.Holds ⟨0, []⟩ where
  mask := rfl
  enabled := iff_of_false nofun fun h => h rfl
  keeps := .nil _
  next _ := rfl

theorem reset (t : ScheduleTrace) (eventMask : UInt32) : (t.configureScheduleTrace eventMask).Holds ⟨eventMask, []⟩ where
  mask := rfl
  enabled := by simp [configureScheduleTrace]
  keeps := .nil _
  next _ := rfl

theorem push_matching (h : t.Holds w) {record : RknpuScheduleTraceRecord} (hmatch : w.mask &&& record.eventType ≠ 0) :
    (t.recordScheduleEvent record).Holds { w with pushed := w.pushed ++ [record] } := by
  have henabled : t.enabled = true := h.enabled.mpr fun hzero => hmatch (by rw [hzero, UInt32.zero_and])
  have hwindow : TraceWindow.matching { w with pushed := w.pushed ++ [record] } = w.matching ++ [record] := by
    simp [TraceWindow.matching, List.filter_append, hmatch]
  have hlength : t.buffer.log.entries.length = min rknpuScheduleTraceCapacity w.matching.length := by
    rw [h.keeps.length_entries, length_numbered]
  have hmatch' : ¬ t.buffer.eventMask &&& record.eventType = 0 := by rwa [h.mask]
  have hbuffer : t.recordScheduleEvent record = { t with buffer := { t.buffer with
      log := t.buffer.log.push rknpuScheduleTraceCapacity { record with sequence := t.buffer.nextSequence }
      nextSequence := if rknpuScheduleTraceCapacity ≤ t.buffer.log.entries.length then t.buffer.nextSequence
        else t.buffer.nextSequence + 1 } } := by
    rw [recordScheduleEvent, if_pos henabled, ScheduleTraceBuffer.push, if_neg hmatch']
  rw [hbuffer]
  refine ⟨h.mask, h.enabled, ?_, fun hroom => ?_⟩
  · rw [hwindow, numbered_append_singleton]
    by_cases hroom : w.matching.length ≤ rknpuScheduleTraceCapacity
    · rw [← h.next hroom]
      exact h.keeps.push _
    · -- The number of an event that does not fit is never seen.
      have hfull := h.keeps.push { record with sequence := t.buffer.nextSequence }
      refine ⟨hfull.entries.trans ?_, hfull.overflowed.trans ?_⟩
      · rw [List.take_append_of_le_length (by rw [length_numbered]; omega),
          List.take_append_of_le_length (by rw [length_numbered]; omega)]
      · simp only [List.length_append, List.length_singleton]
  · rw [hwindow, List.length_append, List.length_singleton] at hroom ⊢
    change (if rknpuScheduleTraceCapacity ≤ t.buffer.log.entries.length then _ else t.buffer.nextSequence + 1) = _
    rw [if_neg (by omega), h.next (by omega), UInt64.ofNat_add]
    rfl

theorem push_other (h : t.Holds w) {record : RknpuScheduleTraceRecord} (hmatch : w.mask &&& record.eventType = 0) :
    (t.recordScheduleEvent record).Holds { w with pushed := w.pushed ++ [record] } := by
  have hwindow : TraceWindow.matching { w with pushed := w.pushed ++ [record] } = w.matching := by
    simp [TraceWindow.matching, List.filter_append, hmatch]
  have hsame : t.recordScheduleEvent record = t := by
    rw [recordScheduleEvent, ScheduleTraceBuffer.push, h.mask, if_pos hmatch, ite_self]
  rw [hsame]
  exact ⟨h.mask, h.enabled, hwindow ▸ h.keeps, hwindow ▸ h.next⟩

/-- Only a reset that is accepted changes the trace. -/
theorem ioctl_eq (t : ScheduleTrace) (query : RknpuScheduleTraceQuery) (answers : TraceAnswers) :
    (handleScheduleTraceIoctl t query answers).2 =
      if query.Resets then t.configureScheduleTrace query.eventMask else t := by
  unfold handleScheduleTraceIoctl RknpuScheduleTraceQuery.Resets
  by_cases hreset : query.operation = rknpuScheduleTraceConfigReset
  · by_cases hmask : query.eventMask &&& ~~~rknpuScheduleEventAll = 0 <;> simp [hreset, hmask]
  · simp only [hreset, false_and, ↓reduceIte]
    split_ifs <;> rfl

theorem op (h : t.Holds w) (op : TraceOp) : (t.op op).Holds (w.op op) := by
  cases op with
  | push record =>
      by_cases hmatch : w.mask &&& record.eventType = 0
      · exact h.push_other hmatch
      · exact h.push_matching hmatch
  | ioctl query answers =>
      rw [ScheduleTrace.op, ioctl_eq, TraceWindow.op]
      split
      · exact reset t _
      · exact h

theorem run (ops : List TraceOp) : (ScheduleTrace.run ops).Holds (TraceWindow.run ops) := by
  induction ops using List.reverseRecOn with
  | nil => exact new
  | append_singleton ops op ih =>
      rw [ScheduleTrace.run, TraceWindow.run, List.foldl_append, List.foldl_append]
      exact ih.op op

end ScheduleTrace.Holds

/-! ## Reading -/

/-- A call of READ that the driver accepts and that can copy its answer out. -/
structure RknpuScheduleTraceQuery.Readable (query : RknpuScheduleTraceQuery) (answers : TraceAnswers) : Prop where
  capacity : query.capacity.toNat ≤ rknpuScheduleTraceCapacity
  address : query.capacity.toNat = 0 ∨ query.recordsAddress ≠ 0
  records : answers.records = .ok ()
  query : answers.query = .ok ()

/-- What a READ gives back after the events of a window. -/
structure TraceWindow.Reads (w : TraceWindow) (records : List RknpuScheduleTraceRecord) (query : RknpuScheduleTraceQuery) :
    Prop where
  /-- The events from the start, as far as they are kept, in the order of the pushes. -/
  kept : ∃ events, events <+: w.matching ∧ records = numbered events ∧ (query.overflowed = 0 ↔ events = w.matching)
  mask : query.eventMask = w.mask
  count : query.count.toNat = records.length

theorem copyOut_ok {answers : TraceAnswers} {records : List RknpuScheduleTraceRecord} {query : RknpuScheduleTraceQuery}
    {reply : List RknpuScheduleTraceRecord × RknpuScheduleTraceQuery} (h : answers.copyOut records query = .ok reply) :
    reply = (records, query) := by
  unfold TraceAnswers.copyOut at h
  cases hr : (if records.isEmpty then .ok () else answers.records : Except RknpuServiceError Unit) with
  | error => rw [hr] at h; cases h
  | ok =>
      cases hq : answers.query with
      | error => rw [hr, hq] at h; cases h
      | ok =>
          rw [hr, hq] at h
          cases h
          rfl

/-- A snapshot is a numbered part of the events, from the start, and complete exactly when it says so. -/
theorem ScheduleTrace.Holds.snapshot {t : ScheduleTrace} {w : TraceWindow} (h : t.Holds w) (capacity : Nat) :
    ∃ events, events <+: w.matching ∧ (t.buffer.log.snapshot capacity).1 = numbered events ∧
      ((t.buffer.log.snapshot capacity).2 = false ↔ events = w.matching) := by
  obtain ⟨n, hn⟩ : ∃ n, (t.buffer.log.snapshot capacity).1 = numbered (w.matching.take n) :=
    ⟨_, (List.prefix_iff_eq_take.mp (h.keeps.snapshot_prefix capacity)).trans (numbered_take ..)⟩
  refine ⟨_, List.take_prefix _ _, hn, (h.keeps.snapshot_complete_iff capacity).trans ?_⟩
  rw [hn]
  constructor
  · intro hall
    have hlength := congrArg List.length hall
    rw [length_numbered, length_numbered] at hlength
    exact (List.take_prefix _ _).eq_of_length hlength
  · exact congrArg numbered

/-- A READ is refused, or copies a snapshot out. -/
theorem read_cases (t : ScheduleTrace) {query : RknpuScheduleTraceQuery} (answers : TraceAnswers)
    (hread : query.operation = rknpuScheduleTraceRead) :
    ((query.capacity.toNat > rknpuScheduleTraceCapacity ∨ (query.capacity.toNat > 0 ∧ query.recordsAddress = 0)) ∧
        (handleScheduleTraceIoctl t query answers).1 = .error .invalidInput) ∨
      (query.capacity.toNat ≤ rknpuScheduleTraceCapacity ∧
        (handleScheduleTraceIoctl t query answers).1 =
          answers.copyOut (t.buffer.log.snapshot query.capacity.toNat).1 { query with
            eventMask := t.buffer.eventMask
            count := UInt32.ofNat (t.buffer.log.snapshot query.capacity.toNat).1.length
            overflowed := if (t.buffer.log.snapshot query.capacity.toNat).2 then 1 else 0 }) := by
  have hop : query.operation ≠ rknpuScheduleTraceConfigReset := by
    rw [hread]
    decide
  rw [handleScheduleTraceIoctl, if_neg hop, if_pos hread]
  dsimp only
  split
  · rename_i hbad
    exact .inl ⟨hbad, rfl⟩
  · rename_i hgood
    rw [not_or] at hgood
    exact .inr ⟨by omega, rfl⟩

/-- Every READ gives the first of the events that match since the last reset, numbered without gaps, and reports exactly
whether some are missing. -/
theorem schedule_trace_exact (ops : List TraceOp) (query : RknpuScheduleTraceQuery) (answers : TraceAnswers)
    (hread : query.operation = rknpuScheduleTraceRead) :
    (query.Readable answers → ∃ reply, (handleScheduleTraceIoctl (.run ops) query answers).1 = .ok reply) ∧
      ∀ records query', (handleScheduleTraceIoctl (.run ops) query answers).1 = .ok (records, query') →
        (TraceWindow.run ops).Reads records query' := by
  have hholds := ScheduleTrace.Holds.run ops
  obtain ⟨hbad, hrefused⟩ | ⟨hcapacity, hreply⟩ := read_cases (.run ops) answers hread
  · refine ⟨fun hreadable => ?_, fun records query' h => nomatch hrefused.symm.trans h⟩
    rcases hbad with hlarge | ⟨hpos, hzero⟩
    · exact absurd hreadable.capacity (by omega)
    · exact (hreadable.address.elim (by omega) (· hzero)).elim
  · refine ⟨fun hreadable => ?_, fun records query' h => ?_⟩
    · rw [hreply, TraceAnswers.copyOut, hreadable.records, hreadable.query, ite_self]
      exact ⟨_, rfl⟩
    · cases copyOut_ok (hreply.symm.trans h)
      obtain ⟨events, hprefix, hrecords, hcomplete⟩ := hholds.snapshot query.capacity.toNat
      refine ⟨⟨events, hprefix, hrecords, ?_⟩, hholds.mask, ?_⟩
      · rw [← hcomplete]
        change (if ((ScheduleTrace.run ops).buffer.log.snapshot query.capacity.toNat).2 = true then (1 : UInt32) else 0) = 0 ↔ _
        cases ((ScheduleTrace.run ops).buffer.log.snapshot query.capacity.toNat).2 <;> decide
      · have hle : ((ScheduleTrace.run ops).buffer.log.snapshot query.capacity.toNat).1.length ≤ query.capacity.toNat := by
          change (List.take (min _ _) _).length ≤ _
          rw [List.length_take]
          omega
        exact UInt32.toNat_ofNat_of_lt' (lt_of_le_of_lt hle query.capacity.toNat_lt)

/-- Three events, two of them asked for, and a reader with room for one. -/
def threeEvents : List TraceOp :=
  [.ioctl ⟨0, rknpuScheduleEventDispatch, 0, 0, 0, 0, 0⟩ ⟨.ok (), .ok (), .ok ()⟩,
    .push { eventType := rknpuScheduleEventDispatch, queueTask := 1 },
    .push { eventType := rknpuScheduleEventEnqueue, queueTask := 2 },
    .push { eventType := rknpuScheduleEventDispatch, queueTask := 2 }]

theorem schedule_trace_exact_short : ∃ records query',
    (handleScheduleTraceIoctl (.run threeEvents) ⟨1, 0, 1, 0, 0, 8, 0⟩ ⟨.ok (), .ok (), .ok ()⟩).1 = .ok (records, query') ∧
      query'.overflowed = 1 ∧ (TraceWindow.run threeEvents).Reads records query' :=
  ⟨_, _, rfl, rfl, (schedule_trace_exact threeEvents ⟨1, 0, 1, 0, 0, 8, 0⟩ ⟨.ok (), .ok (), .ok ()⟩ rfl).2 _ _ rfl⟩

end Rknpu.Service
