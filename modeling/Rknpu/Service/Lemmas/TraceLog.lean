import Rknpu.Service.Lemmas.Timed

/-!
# The records of a run

What the records of the schedule trace have to do with the history while every event is recorded. The threads push their
ENQUEUE records late and in any order, so these agree with the enqueues up to their order; the worker pushes its own
records in the order of its sections.
-/

namespace Rknpu.Service

open Queue

/-! ## What records and events are about -/

/-- A task of a submit on a lane and a core, as records have it. -/
structure TaskKey where
  queueTask : UInt64
  taskIndex : UInt32
  laneSlot : UInt32
  coreSlot : UInt32
deriving DecidableEq

def RknpuScheduleTraceRecord.key (r : RknpuScheduleTraceRecord) : TaskKey :=
  ⟨r.queueTask, r.taskIndex, r.laneSlot, r.coreSlot⟩

def slotKey (id : RknpuQueueTaskId) (slot : Slot) : TaskKey :=
  ⟨id, slot.taskIndex, UInt32.ofNat slot.laneSlot, UInt32.ofNat slot.core⟩

theorem task_of_slotKey {id : RknpuQueueTaskId} {slot slot' : Slot} (h : slotKey id slot = slotKey id slot') :
    slot.task = slot'.task := by
  injection h with _ hindex hlane _
  have hlt : ∀ l : LaneSlot, l.val < 2 ^ 32 := fun l => lt_trans l.isLt (by decide)
  rw [← UInt32.toNat_inj, UInt32.toNat_ofNat_of_lt' (hlt _), UInt32.toNat_ofNat_of_lt' (hlt _)] at hlane
  exact Prod.ext (Fin.ext hlane) hindex

/-- A dispatch or a completion with its time. -/
inductive WorkerMark where
  | dispatch (key : TaskKey) (timeNs : UInt64)
  | complete (key : TaskKey) (timeNs : UInt64)
deriving DecidableEq

def RknpuScheduleTraceRecord.workerMark (r : RknpuScheduleTraceRecord) : Option WorkerMark :=
  if r.eventType = rknpuScheduleEventDispatch then some (.dispatch r.key r.timestampNs)
  else if r.eventType = rknpuScheduleEventComplete then some (.complete r.key r.timestampNs)
  else none

def Event.workerMark : Event → Option WorkerMark
  | .submit id (.launched slot timeNs) => some (.dispatch (slotKey id slot) timeNs)
  | .submit id (.harvested slot _ timeNs) => some (.complete (slotKey id slot) timeNs)
  | _ => none

/-- The task whose dispatch the record tells the outcome of. -/
def RknpuScheduleTraceRecord.outcomeKey (r : RknpuScheduleTraceRecord) : Option TaskKey :=
  if r.eventType = rknpuScheduleEventDispatch ∨ r.eventType = rknpuScheduleEventFailed then some r.key else none

def Event.reservedKey : Event → Option TaskKey
  | .submit id (.reserved slot) => some (slotKey id slot)
  | _ => none

/-- The submit and the time of an enqueue. -/
def RknpuScheduleTraceRecord.enqueueMark (r : RknpuScheduleTraceRecord) : Option (UInt64 × UInt64) :=
  if r.eventType = rknpuScheduleEventEnqueue then some (r.queueTask, r.timestampNs) else none

def Event.enqueueMark : Event → Option (UInt64 × UInt64)
  | .enqueued id _ timeNs => some (id, timeNs)
  | _ => none

/-! ## Records that are still to be pushed -/

def ThreadPc.pending : ThreadPc → List RknpuScheduleTraceRecord
  | .enqueued record => [record]
  | _ => []

def pendingEnqueues (threads : Std.ExtTreeMap Nat ThreadPc compare) : List RknpuScheduleTraceRecord :=
  threads.toList.flatMap (·.2.pending)

section

variable {threads : Std.ExtTreeMap Nat ThreadPc compare} {thread : Nat} {pc : ThreadPc}

theorem pendingEnqueues_insert (threads : Std.ExtTreeMap Nat ThreadPc compare) (thread : Nat) (pc : ThreadPc) :
    (pendingEnqueues (threads.insert thread pc)).Perm (pc.pending ++ pendingEnqueues (threads.erase thread)) :=
  (Std.ExtTreeMap.toList_insert_perm_erase threads thread pc).flatMap_right _

theorem pendingEnqueues_of_getElem? (h : threads[thread]? = some pc) :
    (pendingEnqueues threads).Perm (pc.pending ++ pendingEnqueues (threads.erase thread)) :=
  (Std.ExtTreeMap.toList_erase_perm h).flatMap_right _

/-- A thread that had nothing to push. -/
theorem pendingEnqueues_insert_of_none (h : threads[thread]? = none) (pc : ThreadPc) :
    (pendingEnqueues (threads.insert thread pc)).Perm (pc.pending ++ pendingEnqueues threads) := by
  have hperm := pendingEnqueues_insert threads thread pc
  rwa [Std.ExtTreeMap.erase_eq_self h] at hperm

theorem pendingEnqueues_erase (h : threads[thread]? = some pc) (hpc : pc.pending = []) :
    (pendingEnqueues (threads.erase thread)).Perm (pendingEnqueues threads) := by
  have hperm := pendingEnqueues_of_getElem? h
  rw [hpc, List.nil_append] at hperm
  exact hperm.symm

theorem mem_pendingEnqueues {record : RknpuScheduleTraceRecord} (h : record ∈ pendingEnqueues threads) :
    ∃ thread : Nat, threads[thread]? = some (.enqueued record) := by
  obtain ⟨⟨thread, pc⟩, hmem, hrecord⟩ := List.mem_flatMap.mp h
  rw [Std.ExtTreeMap.mem_toList_iff_getElem?_eq_some] at hmem
  cases pc with
  | enqueued r =>
      cases List.mem_singleton.mp hrecord
      exact ⟨thread, hmem⟩
  | entered => cases hrecord
  | leaving => cases hrecord

end

/-! ## The records of a harvest -/

section

variable {W : Type} {workerResumeNs workerCycle : UInt64} {harvestedCores : Nat}

/-- What the harvest loop records. -/
structure RknpuScheduleTraceRecord.Completes (known : RknpuQueueTaskId → Prop) (r : RknpuScheduleTraceRecord) : Prop where
  kind : r.eventType = rknpuScheduleEventComplete
  known : known r.queueTask

theorem completes_of_mem {completions : List (CoreCompletion × UInt64)} {s : NpuSchedulerState W}
    {r : RknpuScheduleTraceRecord}
    (h : r ∈ completeRecords workerResumeNs workerCycle harvestedCores completions s) :
    r.Completes fun id => s.tasks[id]? ≠ none := by
  induction completions generalizing s with
  | nil => cases h
  | cons c completions ih =>
      obtain ⟨completion, timeNs⟩ := c
      rw [completeRecords, List.mem_append] at h
      rcases h with h | h
      · unfold completeRecord at h
        split at h
        · cases h
        · split at h
          · cases h
          · rename_i task htask
            cases List.mem_singleton.mp h
            exact ⟨rfl, by rw [htask]; exact nofun⟩
      · obtain ⟨hkind, hknown⟩ := ih h
        refine ⟨hkind, ?_⟩
        obtain ⟨t', ht'⟩ := Option.ne_none_iff_exists'.mp hknown
        obtain ⟨t, ht, _⟩ := NpuSchedulerState.descends_harvestCompletion s completion timeNs _ t' ht'
        rw [ht]
        exact nofun

theorem workerMark_completeRecord (s : NpuSchedulerState W) (completion : CoreCompletion) (timeNs : UInt64) :
    (completeRecord s completion timeNs workerResumeNs workerCycle harvestedCores).filterMap
      RknpuScheduleTraceRecord.workerMark = (Sys.harvestEvent s completion timeNs).filterMap Event.workerMark := by
  unfold completeRecord Sys.harvestEvent
  cases s.coreBinding[completion.coreSlot.toNat]? with
  | none => rfl
  | some binding =>
      dsimp only
      rw [Std.ExtTreeMap.contains_eq_isSome_getElem?]
      cases s.tasks[binding.taskId]? with
      | none => rfl
      | some task => rfl

theorem workerMark_movedEvent (moved : Option RknpuQueueTaskId) (s : NpuSchedulerState W) :
    (Sys.movedEvent moved s).filterMap Event.workerMark = [] := by
  cases moved <;> rfl

theorem workerMark_completeRecords (completions : List (CoreCompletion × UInt64)) (s : NpuSchedulerState W) :
    (completeRecords workerResumeNs workerCycle harvestedCores completions s).filterMap
      RknpuScheduleTraceRecord.workerMark = (Sys.harvestEvents completions s).filterMap Event.workerMark := by
  induction completions generalizing s with
  | nil => rfl
  | cons c completions ih =>
      obtain ⟨completion, timeNs⟩ := c
      rw [completeRecords, Sys.harvestEvents]
      simp only [List.filterMap_append, workerMark_completeRecord, workerMark_movedEvent, List.append_nil, ih]

end

/-! ## Where the records of the worker stand -/

structure Timed.Places (s : Timed) : Prop where
  records : ∀ setup, s.clients.sys.worker = .dispatching setup → s.dispatch ≠ .failing → s.records = []
  idle : (∀ setup, s.clients.sys.worker ≠ .dispatching setup) → s.dispatch = .idle
  kinds : ∀ r ∈ s.records, r.eventType = rknpuScheduleEventDispatch ∨ r.eventType = rknpuScheduleEventComplete ∨
    r.eventType = rknpuScheduleEventFailed
  known : ∀ r ∈ s.records, r.queueTask ∈ enqueuedIds s.clients.sys.hist
  pending : ∀ (thread : Nat) (r : RknpuScheduleTraceRecord), s.threads[thread]? = some (.enqueued r) →
    r.eventType = rknpuScheduleEventEnqueue ∧ r.queueTask ∈ enqueuedIds s.clients.sys.hist

namespace Timed.Places

variable {s s' : Timed}

theorem init (start : UInt64) : (Timed.init start).Places where
  records := nofun
  idle := fun _ => rfl
  kinds := nofun
  known := nofun
  pending := fun _ _ h => by simp [Timed.init] at h

theorem mono {hist hist' : List Event} {id : RknpuQueueTaskId} (hpre : hist <+: hist') (h : id ∈ enqueuedIds hist) :
    id ∈ enqueuedIds hist' := by
  obtain ⟨evs, rfl⟩ := hpre
  rw [enqueuedIds_append]
  exact List.mem_append_left _ h

/-- The worker stays where it is. -/
theorem frame (h : s.Places) (hpre : s.clients.sys.hist <+: s'.clients.sys.hist)
    (hworker : s'.clients.sys.worker = s.clients.sys.worker) (hdispatch : s'.dispatch = s.dispatch)
    (hrecords : s'.records <:+ s.records)
    (hthreads : ∀ (thread : Nat) (r : RknpuScheduleTraceRecord), s'.threads[thread]? = some (.enqueued r) →
      s.threads[thread]? = some (.enqueued r) ∨
        (r.eventType = rknpuScheduleEventEnqueue ∧ r.queueTask ∈ enqueuedIds s'.clients.sys.hist)) : s'.Places := by
  refine ⟨?_, ?_, ?_, ?_, ?_⟩
  · intro setup hw hd
    have hnil := h.records setup (hworker.symm.trans hw) (by rwa [← hdispatch])
    rw [hnil] at hrecords
    exact List.suffix_nil.mp hrecords
  · intro hw
    rw [hdispatch]
    exact h.idle fun setup hw' => hw setup (hworker.trans hw')
  · exact fun r hr => h.kinds r (hrecords.subset hr)
  · exact fun r hr => mono hpre (h.known r (hrecords.subset hr))
  · intro thread r ht
    rcases hthreads thread r ht with ht | hnew
    · exact ⟨(h.pending thread r ht).1, mono hpre (h.pending thread r ht).2⟩
    · exact hnew

/-- A section of the worker with the records it leaves. -/
theorem worker (h : s.Places) {c : Clients} {dispatch : DispatchPc} {harvesting : List (CoreCompletion × UInt64)}
    {records : List RknpuScheduleTraceRecord} {a : Act Nat} (hs : s.clients.sys.step a = some c.sys)
    (hrecords : (∃ setup, c.sys.worker = .dispatching setup) → records = [])
    (hidle : (∀ setup, c.sys.worker ≠ .dispatching setup) → dispatch = .idle)
    (hkinds : ∀ r ∈ records, (r.eventType = rknpuScheduleEventDispatch ∨ r.eventType = rknpuScheduleEventComplete ∨
      r.eventType = rknpuScheduleEventFailed) ∧ r.queueTask ∈ enqueuedIds s.clients.sys.hist) :
    ({ s with clients := c, dispatch, harvesting, records } : Timed).Places where
  records := fun setup hw _ => hrecords ⟨setup, hw⟩
  idle := hidle
  kinds := fun r hr => (hkinds r hr).1
  known := fun r hr => mono (Sys.step_hist hs) (hkinds r hr).2
  pending := fun thread r ht => ⟨(h.pending thread r ht).1, mono (Sys.step_hist hs) (h.pending thread r ht).2⟩

theorem step (h : s.Places) (hinv : s.clients.sys.Inv) {a : TimedAct} (hs : s.step a = some s') : s'.Places := by
  have hpre := Timed.hist_of_step hs
  have hlive : ∀ {setup : DispatchSetup}, s.clients.sys.worker = .dispatching setup →
      setup.binding.taskId ∈ enqueuedIds s.clients.sys.hist :=
    fun hw => hinv.enqueued_of_known (.inl (hinv.dispatching _ hw).2)
  have hsame : s.records <:+ s.records := List.suffix_refl _
  cases Timed.step_cases hs with
  | ioctl _ _ => exact h.frame hpre rfl rfl hsame fun _ _ ht => .inl ((thread_of_insert ht).resolve_right nofun)
  | refused _ haccept hc =>
      exact h.frame hpre (congrArg Sys.worker (Clients.step_refused hc haccept)) rfl hsame
        fun _ _ ht => .inl (thread_of_erase ht)
  | @enter thread _ _ t0Ns timeNs submit tasks c _ haccept _ _ hc =>
      have hsys := Clients.step_enter hc haccept
      have hworker := congrArg Sys.worker hsys
      have hmem : s.clients.sys.nextQueueTaskId ∈ enqueuedIds c.sys.hist := by
        rw [hsys]
        exact mem_enqueuedIds.mpr ⟨_, _, List.mem_append_right _ List.mem_cons_self⟩
      refine h.frame hpre hworker rfl hsame fun _ r ht => (thread_of_insert ht).imp_right fun he => ?_
      cases he
      exact ⟨rfl, hmem⟩
  | recordEnqueue _ => exact h.frame hpre rfl rfl hsame fun _ _ ht => .inl (thread_of_erase ht)
  | call _ hc => exact h.frame hpre (Clients.step_call hc).2 rfl hsame fun _ _ ht => .inl ht
  | copyBack _ _ _ _ hc =>
      exact h.frame hpre (Clients.step_call hc).2 rfl hsame fun _ _ ht => .inl ((thread_of_insert ht).resolve_right nofun)
  | recordSubmit _ => exact h.frame hpre rfl rfl hsame fun _ _ ht => .inl (thread_of_erase ht)
  | decide _ hrecords hc =>
      have hstep := Clients.step_worker hc
      have hfree := Sys.free_of_decide hstep
      refine h.worker hstep (fun _ => hrecords) (fun _ => h.idle fun setup hw => ?_) fun r hr => ?_
      · cases hfree.symm.trans hw
      · rw [show s.records = [] from hrecords] at hr
        cases hr
  | submitStep hw hidle _ =>
      refine ⟨fun setup hw' _ => h.records setup hw' ?_, fun hno => (hno _ hw).elim, h.kinds, h.known, h.pending⟩
      rw [hidle]
      exact nofun
  | @launch setup timeNs workerCycle c hw _ hc =>
      have hstep := Clients.step_worker hc
      refine h.worker hstep (fun ⟨setup', hw'⟩ => ?_) (fun _ => rfl) fun r hr => ?_
      · simp only [Sys.step, hw, Option.some.injEq] at hstep
        rw [← hstep] at hw'
        cases hw'
      · cases List.mem_singleton.mp hr
        exact ⟨.inl rfl, hlive hw⟩
  | refuse hw _ _ =>
      refine ⟨fun _ _ hne => (hne rfl).elim, fun hno => (hno _ hw).elim, fun r hr => ?_, fun r hr => ?_, h.pending⟩
      · cases List.mem_singleton.mp hr
        exact .inr (.inr rfl)
      · cases List.mem_singleton.mp hr
        exact hlive hw
  | fail _ hrecords hc =>
      refine h.worker (Clients.step_worker hc) (fun _ => hrecords) (fun _ => rfl) fun r hr => ?_
      rw [show s.records = [] from hrecords] at hr
      cases hr
  | completion _ _ _ => exact h.frame hpre rfl rfl hsame fun _ _ ht => .inl ht
  | harvest _ hc =>
      have hstep := Clients.step_worker hc
      obtain ⟨hfree, hsys⟩ := Option.ite_none_right_eq_some.mp hstep
      refine h.worker hstep (fun ⟨setup, hw⟩ => ?_) (fun _ => h.idle fun setup hw => ?_) fun r hr => ?_
      · rw [← Option.some.inj hsys] at hw
        cases hw
      · cases hfree.symm.trans hw
      · obtain ⟨hkind, hknown⟩ := completes_of_mem hr
        exact ⟨.inr (.inl hkind), hinv.enqueued_of_known (.inl hknown)⟩
  | wake _ hc =>
      have hstep := Clients.step_worker hc
      obtain ⟨_, _, hwaking, hfree⟩ := Sys.waking_of_wake hstep
      refine h.worker hstep (fun ⟨setup, hw⟩ => ?_) (fun _ => h.idle fun setup hw => ?_) fun r hr => ⟨h.kinds r hr, h.known r hr⟩
      · cases hfree.symm.trans hw
      · cases hwaking.symm.trans hw
  | record hrecords =>
      refine h.frame hpre rfl rfl ?_ fun _ _ ht => .inl ht
      rw [hrecords]
      exact List.suffix_cons _ _
  | signal hc => exact h.frame hpre (congrArg Sys.worker (Clients.step_signal hc)) rfl hsame fun _ _ ht => .inl ht
  | configure _ => exact h.frame hpre rfl rfl hsame fun _ _ ht => .inl ht
  | resetSubmits => exact h.frame hpre rfl rfl hsame fun _ _ ht => .inl ht

end Timed.Places

theorem Timed.places_of_run {start : UInt64} {acts : List TimedAct} {s : Timed}
    (hrun : (timed start).run acts = some s) (hfit : s.clients.sys.IdsFit) : s.Places := by
  refine Machine.run_induction (M := timed start) (P := fun _ s => s.clients.sys.IdsFit → s.Places) ?_ ?_ hrun hfit
  · exact fun _ => .init start
  · intro _ s a s' hrun ih hs hfit'
    have hfit := idsFit_of_step hs hfit'
    obtain ⟨acts', hsys⟩ := sys_of_run hrun
    exact (ih hfit).step (Sys.inv_of_run hsys hfit) hs

/-! ## Records against the history -/

namespace Timed

/-- The records in the schedule trace. -/
def log (s : Timed) : List RknpuScheduleTraceRecord := s.schedule.buffer.log.entries

/-- Every event is recorded. -/
structure Tracing (s : Timed) : Prop where
  enabled : s.schedule.enabled = true
  mask : s.schedule.buffer.eventMask = rknpuScheduleEventAll

/-- The task that is being dispatched, until there is a record of the outcome. -/
def openKeys (s : Timed) : List TaskKey :=
  match s.clients.sys.worker with
  | .dispatching setup =>
      if s.dispatch = .failing then [] else [slotKey setup.binding.taskId (setup.binding.slot setup.coreSlot)]
  | _ => []

theorem openKeys_dispatching {s : Timed} (setup : DispatchSetup) (hw : s.clients.sys.worker = .dispatching setup)
    (hd : s.dispatch ≠ .failing) : s.openKeys = [slotKey setup.binding.taskId (setup.binding.slot setup.coreSlot)] := by
  simp [openKeys, hw, hd]

theorem openKeys_failing {s : Timed} (hd : s.dispatch = .failing) : s.openKeys = [] := by
  unfold openKeys
  split
  · exact if_pos hd
  · rfl

theorem openKeys_of_ne {s : Timed} (hw : ∀ setup, s.clients.sys.worker ≠ .dispatching setup) : s.openKeys = [] := by
  unfold openKeys
  split
  · exact (hw _ ‹_›).elim
  · rfl

theorem openKeys_congr {s s' : Timed} (hw : s'.clients.sys.worker = s.clients.sys.worker) (hd : s'.dispatch = s.dispatch) :
    s'.openKeys = s.openKeys := by
  simp only [openKeys, hw, hd]

/-- The records tell the history. -/
structure Faithful (s : Timed) : Prop where
  enqueues : ((s.log ++ pendingEnqueues s.threads).filterMap RknpuScheduleTraceRecord.enqueueMark).Perm
    (s.clients.sys.hist.filterMap Event.enqueueMark)
  outcomes : s.clients.sys.hist.filterMap Event.reservedKey =
    (s.log ++ s.records).filterMap RknpuScheduleTraceRecord.outcomeKey ++ s.openKeys
  marks : s.clients.sys.hist.filterMap Event.workerMark =
    (s.log ++ s.records).filterMap RknpuScheduleTraceRecord.workerMark

end Timed

/-! ## Pushes -/

/-- The kinds of records. -/
def RknpuScheduleTraceRecord.Kind (r : RknpuScheduleTraceRecord) : Prop :=
  r.eventType = rknpuScheduleEventEnqueue ∨ r.eventType = rknpuScheduleEventDispatch ∨
    r.eventType = rknpuScheduleEventComplete ∨ r.eventType = rknpuScheduleEventFailed

/-- Records that differ in their number. -/
structure RknpuScheduleTraceRecord.Alike (r r' : RknpuScheduleTraceRecord) : Prop where
  enqueueMark : r'.enqueueMark = r.enqueueMark
  outcomeKey : r'.outcomeKey = r.outcomeKey
  workerMark : r'.workerMark = r.workerMark

/-- A push that does not overflow adds the record under the next number. -/
theorem Timed.Tracing.push {s : Timed} (h : s.Tracing) {record : RknpuScheduleTraceRecord} (hkind : record.Kind)
    (hfull : (s.push record).schedule.buffer.log.overflowed = false) :
    s.schedule.buffer.log.overflowed = false ∧ ∃ r, (s.push record).log = s.log ++ [r] ∧ record.Alike r := by
  have hmatch : ¬ s.schedule.buffer.eventMask &&& record.eventType = 0 := by
    rw [h.mask]
    rcases hkind with he | he | he | he <;> rw [he] <;> decide
  have hlog : (s.push record).schedule.buffer.log = s.schedule.buffer.log.push rknpuScheduleTraceCapacity
      { record with sequence := s.schedule.buffer.nextSequence } := by
    simp only [Timed.push, ScheduleTrace.recordScheduleEvent, h.enabled, ScheduleTraceBuffer.push, ↓reduceIte]
    rw [if_neg hmatch]
  rw [hlog, BoundedLog.push] at hfull
  rw [Timed.log, hlog, BoundedLog.push]
  split at hfull
  · cases hfull
  · rename_i hroom
    rw [if_neg hroom]
    exact ⟨hfull, _, rfl, rfl, rfl, rfl⟩

theorem Timed.Tracing.of_push {s : Timed} (h : s.Tracing) (record : RknpuScheduleTraceRecord) :
    (s.push record).Tracing := by
  have henabled : (s.push record).schedule = { s.schedule with buffer := s.schedule.buffer.push record } :=
    if_pos h.enabled
  refine ⟨?_, ?_⟩
  · rw [henabled]
    exact h.enabled
  · rw [henabled]
    change (s.schedule.buffer.push record).eventMask = _
    unfold ScheduleTraceBuffer.push
    split <;> exact h.mask

/-- An overflow is not forgotten. -/
theorem Timed.overflowed_push {s : Timed} {record : RknpuScheduleTraceRecord}
    (h : s.schedule.buffer.log.overflowed = true) : (s.push record).schedule.buffer.log.overflowed = true := by
  unfold Timed.push ScheduleTrace.recordScheduleEvent
  split
  · change (s.schedule.buffer.push record).log.overflowed = true
    unfold ScheduleTraceBuffer.push
    split
    · exact h
    · change (s.schedule.buffer.log.push _ _).overflowed = true
      unfold BoundedLog.push
      split
      · rfl
      · exact h
  · exact h

theorem Timed.Tracing.step {s s' : Timed} (h : s.Tracing) {a : TimedAct} (hs : s.step a = some s')
    (ha : ∀ eventMask, a ≠ .configure eventMask) :
    s'.Tracing ∧ (s'.schedule.buffer.log.overflowed = false → s.schedule.buffer.log.overflowed = false) := by
  have hpush : ∀ record, (s.push record).schedule.buffer.log.overflowed = false →
      s.schedule.buffer.log.overflowed = false := by
    intro record hfull
    rw [← Bool.not_eq_true] at hfull ⊢
    exact fun hold => hfull (overflowed_push hold)
  cases Timed.step_cases hs with
  | @recordEnqueue _ record _ => exact ⟨⟨(h.of_push record).enabled, (h.of_push record).mask⟩, hpush record⟩
  | @record record _ _ => exact ⟨⟨(h.of_push record).enabled, (h.of_push record).mask⟩, hpush record⟩
  | configure eventMask => exact (ha eventMask rfl).elim
  | _ => exact ⟨⟨h.enabled, h.mask⟩, id⟩

namespace RknpuScheduleTraceRecord

variable {r : RknpuScheduleTraceRecord}

theorem enqueueMark_of_ne (h : r.eventType ≠ rknpuScheduleEventEnqueue) : r.enqueueMark = none := if_neg h

theorem workerMark_of_enqueue (h : r.eventType = rknpuScheduleEventEnqueue) : r.workerMark = none := by
  unfold workerMark
  rw [h]
  rfl

theorem outcomeKey_of_enqueue (h : r.eventType = rknpuScheduleEventEnqueue) : r.outcomeKey = none := by
  unfold outcomeKey
  rw [h]
  rfl

end RknpuScheduleTraceRecord

/-! ## Quiet events -/

theorem Unstamped.enqueueMark {evs : List Event} (h : Unstamped evs) : evs.filterMap Event.enqueueMark = [] := by
  refine List.filterMap_eq_nil_iff.mpr fun e he => ?_
  cases e with
  | enqueued => cases h _ he
  | submit => rfl
  | moved => rfl

theorem Unstamped.workerMark {evs : List Event} (h : Unstamped evs) : evs.filterMap Event.workerMark = [] := by
  refine List.filterMap_eq_nil_iff.mpr fun e he => ?_
  cases e with
  | submit id e =>
      cases e with
      | launched => cases h _ he
      | harvested => cases h _ he
      | _ => rfl
  | enqueued => rfl
  | moved => rfl

theorem Quiet.reservedKey {evs : List Event} (h : Quiet evs) : evs.filterMap Event.reservedKey = [] := by
  refine List.filterMap_eq_nil_iff.mpr fun e he => ?_
  cases e with
  | submit id e =>
      cases e with
      | reserved slot => exact (h.unreserved id slot he).elim
      | _ => rfl
  | enqueued => rfl
  | moved => rfl

namespace Timed.Faithful

variable {s s' : Timed}

/-- A step with the events it adds to the history. -/
theorem of_events (h : s.Faithful) (evs : List Event) (hhist : s'.clients.sys.hist = s.clients.sys.hist ++ evs)
    (henqueues : ((s'.log ++ pendingEnqueues s'.threads).filterMap RknpuScheduleTraceRecord.enqueueMark).Perm
      ((s.log ++ pendingEnqueues s.threads).filterMap RknpuScheduleTraceRecord.enqueueMark ++
        evs.filterMap Event.enqueueMark))
    (houtcomes : (s.log ++ s.records).filterMap RknpuScheduleTraceRecord.outcomeKey ++ s.openKeys ++
      evs.filterMap Event.reservedKey = (s'.log ++ s'.records).filterMap RknpuScheduleTraceRecord.outcomeKey ++ s'.openKeys)
    (hmarks : (s.log ++ s.records).filterMap RknpuScheduleTraceRecord.workerMark ++ evs.filterMap Event.workerMark =
      (s'.log ++ s'.records).filterMap RknpuScheduleTraceRecord.workerMark) : s'.Faithful where
  enqueues := by
    rw [hhist, List.filterMap_append (l := s.clients.sys.hist)]
    exact henqueues.trans (h.enqueues.append_right _)
  outcomes := by rw [hhist, List.filterMap_append (l := s.clients.sys.hist), h.outcomes, houtcomes]
  marks := by rw [hhist, List.filterMap_append (l := s.clients.sys.hist), h.marks, hmarks]

/-- A quiet step of which no record tells. -/
theorem frame (h : s.Faithful) (hhist : ∃ evs, s'.clients.sys.hist = s.clients.sys.hist ++ evs ∧ Quiet evs)
    (hlog : s'.log = s.log) (hrecords : s'.records = s.records)
    (hpending : (pendingEnqueues s'.threads).Perm (pendingEnqueues s.threads)) (hopen : s'.openKeys = s.openKeys) :
    s'.Faithful := by
  obtain ⟨evs, hhist, hquiet⟩ := hhist
  refine h.of_events evs hhist ?_ ?_ ?_
  · rw [hquiet.unstamped.enqueueMark, List.append_nil, hlog]
    exact (hpending.append_left _).filterMap _
  · rw [hquiet.reservedKey, List.append_nil, hlog, hrecords, hopen]
  · rw [hquiet.unstamped.workerMark, List.append_nil, hlog, hrecords]

/-! ## The sections and their records -/

theorem enter (h : s.Faithful) {thread : Nat} {t0Ns timeNs : UInt64} {submit : RknpuSubmit} {tasks : List RknpuTask}
    {waiter : Nat} {c : Clients} (hthread : s.threads[thread]? = some (.entered t0Ns))
    (hsys : c.sys = s.clients.sys.enqueue (queuedSubmit submit tasks t0Ns) waiter timeNs) :
    ({ s with
      clients := c
      now := timeNs
      threads := s.threads.insert thread
        (.enqueued (enqueueRecord s.clients.sys.nextQueueTaskId submit tasks timeNs)) } : Timed).Faithful := by
  refine h.of_events [.enqueued s.clients.sys.nextQueueTaskId (queuedSubmit submit tasks t0Ns) timeNs]
    (congrArg Sys.hist hsys) ?_ ?_ ?_
  · have hpending := (pendingEnqueues_insert s.threads thread
      (.enqueued (enqueueRecord s.clients.sys.nextQueueTaskId submit tasks timeNs))).trans
      ((pendingEnqueues_of_getElem? hthread).symm.append_left _)
    have hperm := (hpending.trans List.perm_append_comm).append_left s.log
    rw [← List.append_assoc] at hperm
    have hmarks := hperm.filterMap RknpuScheduleTraceRecord.enqueueMark
    rwa [List.filterMap_append (l := s.log ++ _)] at hmarks
  · have hworker : c.sys.worker = s.clients.sys.worker := by
      rw [hsys]
      rfl
    simp only [openKeys, hworker]
    exact List.append_nil _
  · exact List.append_nil _

theorem recordEnqueue (h : s.Faithful) (htracing : s.Tracing) {thread : Nat} {record : RknpuScheduleTraceRecord}
    (hthread : s.threads[thread]? = some (.enqueued record)) (hkind : record.eventType = rknpuScheduleEventEnqueue)
    (hfull : (s.push record).schedule.buffer.log.overflowed = false) :
    ({ s.push record with threads := s.threads.erase thread } : Timed).Faithful := by
  obtain ⟨_, r, hlog, halike⟩ := htracing.push (.inl hkind) hfull
  refine h.of_events [] (List.append_nil _).symm ?_ ?_ ?_
  · have hpending := ((pendingEnqueues_of_getElem? hthread).symm.append_left s.log).filterMap
      RknpuScheduleTraceRecord.enqueueMark
    change (((s.push record).log ++ pendingEnqueues (s.threads.erase thread)).filterMap _).Perm _
    rw [hlog, List.append_assoc]
    simpa [List.filterMap_append, ThreadPc.pending, List.filterMap_cons, halike.enqueueMark] using hpending
  · change _ = ((s.push record).log ++ s.records).filterMap _ ++ s.openKeys
    have hnone := halike.outcomeKey.trans (RknpuScheduleTraceRecord.outcomeKey_of_enqueue hkind)
    simp [hlog, List.filterMap_append, hnone]
  · change _ = ((s.push record).log ++ s.records).filterMap _
    have hnone := halike.workerMark.trans (RknpuScheduleTraceRecord.workerMark_of_enqueue hkind)
    simp [hlog, List.filterMap_append, hnone]

/-- The worker pushes the first of its records. -/
theorem record (h : s.Faithful) (htracing : s.Tracing) {r : RknpuScheduleTraceRecord}
    {records : List RknpuScheduleTraceRecord} (hrecords : s.records = r :: records)
    (hkind : r.eventType = rknpuScheduleEventDispatch ∨ r.eventType = rknpuScheduleEventComplete ∨
      r.eventType = rknpuScheduleEventFailed)
    (hfull : (s.push r).schedule.buffer.log.overflowed = false) :
    ({ s.push r with records } : Timed).Faithful := by
  obtain ⟨_, r', hlog, halike⟩ := htracing.push (.inr hkind) hfull
  have hne : r.eventType ≠ rknpuScheduleEventEnqueue := by
    rcases hkind with he | he | he <;> rw [he] <;> decide
  refine h.of_events [] (List.append_nil _).symm ?_ ?_ ?_
  · have hnone := halike.enqueueMark.trans (RknpuScheduleTraceRecord.enqueueMark_of_ne hne)
    change (((s.push r).log ++ pendingEnqueues s.threads).filterMap _).Perm _
    simp [hlog, List.filterMap_append, hnone]
  · change _ = ((s.push r).log ++ records).filterMap _ ++ s.openKeys
    simp [hlog, hrecords, List.filterMap_append, List.filterMap_cons, halike.outcomeKey]
  · change _ = ((s.push r).log ++ records).filterMap _
    simp [hlog, hrecords, List.filterMap_append, List.filterMap_cons, halike.workerMark]

/-- A section of the worker, which had no records left, with the records it leaves. -/
theorem worker (h : s.Faithful) {c : Clients} {now : UInt64} {dispatch : DispatchPc}
    {harvesting : List (CoreCompletion × UInt64)} {records : List RknpuScheduleTraceRecord} (evs : List Event)
    (hhist : c.sys.hist = s.clients.sys.hist ++ evs) (hrecords : s.records = [])
    (henqueues : evs.filterMap Event.enqueueMark = [])
    (houtcomes : s.openKeys ++ evs.filterMap Event.reservedKey = records.filterMap RknpuScheduleTraceRecord.outcomeKey ++
      ({ s with clients := c, now, dispatch, harvesting, records } : Timed).openKeys)
    (hmarks : evs.filterMap Event.workerMark = records.filterMap RknpuScheduleTraceRecord.workerMark) :
    ({ s with clients := c, now, dispatch, harvesting, records } : Timed).Faithful := by
  refine h.of_events evs hhist ?_ ?_ ?_
  · rw [henqueues, List.append_nil]
    exact .refl _
  · change _ = (s.log ++ records).filterMap _ ++ _
    rw [hrecords, List.append_nil, List.append_assoc, houtcomes, List.filterMap_append, List.append_assoc]
  · change _ = (s.log ++ records).filterMap _
    rw [hrecords, List.append_nil, hmarks, List.filterMap_append]

/-- A decision reserves at most one task. -/
theorem decide (h : s.Faithful) (hplaces : s.Places) {c : Clients} (hs : s.clients.sys.step .decide = some c.sys)
    (hrecords : s.records = []) : ({ s with clients := c } : Timed).Faithful := by
  have hfree := Sys.free_of_decide hs
  have hopen : s.openKeys = [] := openKeys_of_ne fun setup hw => nomatch hfree.symm.trans hw
  have hsys : s.clients.sys.decide = c.sys := Option.some.inj (Option.ite_none_right_eq_some.mp hs).2
  have hmarks : ([] : List WorkerMark) = s.records.filterMap RknpuScheduleTraceRecord.workerMark := by
    rw [hrecords]
    rfl
  unfold Sys.decide at hsys
  split at hsys
  · refine h.worker [] ?_ hrecords rfl ?_ hmarks
    · rw [← hsys, List.append_nil]
    · rw [hopen, hrecords, openKeys_of_ne]
      · rfl
      · intro setup hw
        rw [← hsys] at hw
        cases hfree.symm.trans hw
  · rename_i setup state _
    have hidle : s.dispatch = .idle := hplaces.idle fun setup hw => nomatch hfree.symm.trans hw
    refine h.worker [.submit setup.binding.taskId (.reserved (setup.binding.slot setup.coreSlot))] ?_ hrecords rfl
      ?_ hmarks
    · rw [← hsys]
    · rw [hopen, hrecords, openKeys_dispatching setup]
      · rfl
      · rw [← hsys]
      · rw [hidle]
        exact nofun

theorem launch (h : s.Faithful) (hplaces : s.Places) {setup : DispatchSetup} {timeNs workerCycle : UInt64} {c : Clients}
    (hw : s.clients.sys.worker = .dispatching setup) (hasked : s.dispatch = .asked timeNs)
    (hs : s.clients.sys.step (.launch timeNs) = some c.sys) :
    ({ s with
      clients := c
      dispatch := .idle
      records := [dispatchRecord rknpuScheduleEventDispatch setup timeNs workerCycle] } : Timed).Faithful := by
  have hne : s.dispatch ≠ .failing := by rw [hasked]; exact nofun
  simp only [Sys.step, hw, Option.some.injEq] at hs
  refine h.worker [.submit setup.binding.taskId (.launched (setup.binding.slot setup.coreSlot) timeNs)] ?_
    (hplaces.records setup hw hne) rfl ?_ rfl
  · rw [← hs]
    rfl
  · rw [openKeys_dispatching setup hw hne, openKeys_of_ne]
    · rfl
    · intro setup' hw'
      rw [← hs] at hw'
      cases hw'

theorem refuse (h : s.Faithful) (hplaces : s.Places) {setup : DispatchSetup} {timeNs workerCycle : UInt64}
    (hw : s.clients.sys.worker = .dispatching setup) (hne : s.dispatch ≠ .failing) :
    ({ s with
      now := timeNs
      dispatch := .failing
      records := [dispatchRecord rknpuScheduleEventFailed setup timeNs workerCycle] } : Timed).Faithful := by
  refine h.worker [] (List.append_nil _).symm (hplaces.records setup hw hne) rfl ?_ rfl
  rw [openKeys_dispatching setup hw hne, openKeys_failing rfl]
  rfl

theorem harvest (h : s.Faithful) {workerResumeNs workerCycle : UInt64} {c : Clients}
    (hs : s.clients.sys.step (.harvest s.harvesting) = some c.sys) (hrecords : s.records = []) :
    ({ s with
      clients := c
      harvesting := []
      records := completeRecords workerResumeNs workerCycle s.harvesting.length s.harvesting s.clients.sys.state } :
        Timed).Faithful := by
  obtain ⟨hfree, hs⟩ := Option.ite_none_right_eq_some.mp hs
  have hsys := Option.some.inj hs
  have hopen : s.openKeys = [] := openKeys_of_ne fun setup hw => nomatch hfree.symm.trans hw
  have hreserved : (Sys.harvestEvents s.harvesting s.clients.sys.state).filterMap Event.reservedKey = [] :=
    List.filterMap_eq_nil_iff.mpr fun e he => by cases HarvestEvent.of_mem he <;> rfl
  have houtcome : (completeRecords workerResumeNs workerCycle s.harvesting.length s.harvesting
      s.clients.sys.state).filterMap RknpuScheduleTraceRecord.outcomeKey = [] := by
    refine List.filterMap_eq_nil_iff.mpr fun r hr => ?_
    unfold RknpuScheduleTraceRecord.outcomeKey
    rw [(completes_of_mem hr).kind]
    rfl
  refine h.worker (Sys.harvestEvents s.harvesting s.clients.sys.state) ?_ hrecords ?_ ?_
    (workerMark_completeRecords _ _).symm
  · rw [← hsys]
    rfl
  · exact List.filterMap_eq_nil_iff.mpr fun e he => by cases HarvestEvent.of_mem he <;> rfl
  · rw [hopen, hreserved, houtcome, openKeys_of_ne]
    intro setup hw
    rw [← hsys] at hw
    cases hw

/-! ## Every run -/

theorem step (h : s.Faithful) (htracing : s.Tracing) (hplaces : s.Places) {a : TimedAct} (hs : s.step a = some s')
    (ha : ∀ eventMask, a ≠ .configure eventMask) (hfull : s'.schedule.buffer.log.overflowed = false) : s'.Faithful := by
  have hsame : ∃ evs, s.clients.sys.hist = s.clients.sys.hist ++ evs ∧ Quiet evs := ⟨[], (List.append_nil _).symm, .nil⟩
  cases Timed.step_cases hs with
  | ioctl hthread _ => exact h.frame hsame rfl rfl (pendingEnqueues_insert_of_none hthread _) rfl
  | refused hthread haccept hc =>
      have hsys := Clients.step_refused hc haccept
      refine h.frame ?_ rfl rfl (pendingEnqueues_erase hthread rfl) ?_
      · rw [hsys]
        exact hsame
      · simp only [openKeys, hsys]
  | enter hthread haccept _ _ hc => exact h.enter hthread (Clients.step_enter hc haccept)
  | recordEnqueue hthread => exact h.recordEnqueue htracing hthread (hplaces.pending _ _ hthread).1 hfull
  | call _ hc =>
      obtain ⟨hquiet, hworker⟩ := Clients.step_call hc
      exact h.frame hquiet rfl rfl (.refl _) (by simp only [openKeys, hworker])
  | copyBack hthread _ _ _ hc =>
      obtain ⟨hquiet, hworker⟩ := Clients.step_call hc
      refine h.frame hquiet rfl rfl (pendingEnqueues_insert_of_none hthread _) ?_
      simp only [openKeys, hworker]
  | recordSubmit hthread => exact h.frame hsame rfl rfl (pendingEnqueues_erase hthread rfl) rfl
  | decide _ hrecords hc => exact h.decide hplaces (Clients.step_worker hc) hrecords
  | submitStep hw hidle _ =>
      refine h.frame hsame rfl rfl (.refl _) ?_
      rw [openKeys_dispatching (s := s) _ hw (by rw [hidle]; exact nofun)]
      exact openKeys_dispatching _ hw nofun
  | launch hw hasked hc => exact h.launch hplaces hw hasked (Clients.step_worker hc)
  | refuse hw hne _ => exact h.refuse hplaces hw hne
  | fail hfailing _ hc =>
      have hstep := Clients.step_worker hc
      obtain ⟨setup, _, hsys⟩ := Sys.dispatching_of_fail hstep
      refine h.frame (Sys.step_quiet hstep trivial nofun) rfl rfl (.refl _) ?_
      rw [openKeys_failing hfailing]
      refine openKeys_of_ne fun setup' hw => ?_
      rw [hsys] at hw
      cases hw
  | completion _ _ _ => exact h.frame hsame rfl rfl (.refl _) rfl
  | harvest hrecords hc => exact h.harvest (Clients.step_worker hc) hrecords
  | wake _ hc =>
      have hstep := Clients.step_worker hc
      obtain ⟨_, _, hwaking, hfree⟩ := Sys.waking_of_wake hstep
      refine h.frame (Sys.step_quiet hstep trivial nofun) rfl rfl (.refl _) ?_
      rw [openKeys_of_ne (s := s) fun setup hw => nomatch hwaking.symm.trans hw]
      exact openKeys_of_ne fun setup hw => nomatch hfree.symm.trans hw
  | record hrecords =>
      exact h.record htracing hrecords (hplaces.kinds _ (by rw [hrecords]; exact List.mem_cons_self)) hfull
  | signal hc =>
      have hsys := Clients.step_signal hc
      refine h.frame ?_ rfl rfl (.refl _) ?_
      · rw [hsys]
        exact hsame
      · simp only [openKeys, hsys]
  | configure eventMask => exact (ha eventMask rfl).elim
  | resetSubmits => exact h.frame hsame rfl rfl (.refl _) rfl

end Timed.Faithful

/-- Every event is recorded from before the first enqueue on. -/
def Traced (start : UInt64) (acts : List TimedAct) : Prop :=
  ∃ before after s₀, acts = before ++ .configure rknpuScheduleEventAll :: after ∧ (timed start).run before = some s₀ ∧
    enqueuedIds s₀.clients.sys.hist = [] ∧ ∀ a ∈ after, ∀ eventMask, a ≠ .configure eventMask

namespace Timed

variable {start : UInt64} {s : Timed}

/-- Before the first enqueue there is nothing to record. -/
theorem faithful_of_configure (hplaces : s.Places) (hinv : s.clients.sys.Inv)
    (hnone : enqueuedIds s.clients.sys.hist = []) :
    ({ s with schedule := s.schedule.configureScheduleTrace rknpuScheduleEventAll } : Timed).Faithful := by
  have hid : ∀ id, id ∉ enqueuedIds s.clients.sys.hist := fun id => by rw [hnone]; exact List.not_mem_nil
  have hevent : ∀ {id e}, .submit id e ∉ s.clients.sys.hist := by
    intro id e he
    have hnil := (hinv.unknown id (hid id)).1
    rw [← mem_eventsOf, hnil] at he
    cases he
  have hmarks : ∀ {α : Type} {f : Event → Option α}, (∀ id bindings, f (.moved id bindings) = none) →
      s.clients.sys.hist.filterMap f = [] := by
    intro α f hmoved
    refine List.filterMap_eq_nil_iff.mpr fun e he => ?_
    cases e with
    | enqueued id queued timeNs => exact (hid id (mem_enqueuedIds.mpr ⟨queued, timeNs, he⟩)).elim
    | submit id e => exact (hevent he).elim
    | moved id bindings => exact hmoved id bindings
  have hrecords : s.records = [] := List.eq_nil_iff_forall_not_mem.mpr fun r hr => hid _ (hplaces.known r hr)
  have hpending : pendingEnqueues s.threads = [] := by
    refine List.eq_nil_iff_forall_not_mem.mpr fun r hr => ?_
    obtain ⟨thread, hthread⟩ := mem_pendingEnqueues hr
    exact hid _ (hplaces.pending thread r hthread).2
  have hopen : s.openKeys = [] := openKeys_of_ne fun setup hw =>
    hid _ (hinv.enqueued_of_known (.inl (hinv.dispatching setup hw).2))
  refine ⟨?_, ?_, ?_⟩
  · change ((([] : List RknpuScheduleTraceRecord) ++ pendingEnqueues s.threads).filterMap _).Perm
      (s.clients.sys.hist.filterMap _)
    rw [hpending, hmarks fun _ _ => rfl]
    exact .refl _
  · change s.clients.sys.hist.filterMap _ = (([] : List RknpuScheduleTraceRecord) ++ s.records).filterMap _ ++ s.openKeys
    rw [hrecords, hopen, hmarks fun _ _ => rfl]
    rfl
  · change s.clients.sys.hist.filterMap _ = (([] : List RknpuScheduleTraceRecord) ++ s.records).filterMap _
    rw [hrecords, hmarks fun _ _ => rfl]
    rfl

theorem faithful_of_run {acts : List TimedAct} (hrun : (timed start).run acts = some s) (htraced : Traced start acts)
    (hfit : s.clients.sys.IdsFit) (hfull : s.schedule.buffer.log.overflowed = false) : s.Faithful := by
  obtain ⟨before, after, s₀, rfl, hbefore, hnone, hafter⟩ := htraced
  have hall := (Machine.runFrom_append (M := timed start) _ before _).symm.trans hrun
  rw [show (timed start).runFrom (timed start).init before = some s₀ from hbefore, Option.bind_some] at hall
  obtain ⟨s₁, hs₁, hafterRun⟩ := Option.bind_eq_some_iff.mp hall
  have hrun₁ := Machine.run_snoc hbefore hs₁
  cases hs₁
  refine (Machine.runFrom_induction (M := timed start) (P := fun acts s => (∀ a ∈ acts, ∀ eventMask, a ≠ .configure eventMask) →
    s.Tracing ∧ (s.clients.sys.IdsFit → s.schedule.buffer.log.overflowed = false → s.Faithful)) ?_ ?_ hafterRun hafter).2
    hfit hfull
  · refine fun _ => ⟨⟨rfl, rfl⟩, fun hfit₁ _ => ?_⟩
    obtain ⟨sysActs, hsys⟩ := sys_of_run hbefore
    exact faithful_of_configure (places_of_run hbefore hfit₁) (Sys.inv_of_run hsys hfit₁) hnone
  · intro acts s a s' hacts ih hs hno
    obtain ⟨htracing, hfaithful⟩ := ih fun a' ha' => hno a' (List.mem_append_left _ ha')
    have ha := hno a (List.mem_append_right _ List.mem_cons_self)
    obtain ⟨htracing', hold⟩ := htracing.step hs ha
    refine ⟨htracing', fun hfit' hfull' => ?_⟩
    have hfit := idsFit_of_step hs hfit'
    have hplaces := places_of_run (Machine.run_append hrun₁ hacts) hfit
    exact (hfaithful hfit (hold hfull')).step htracing hplaces hs ha hfull'

end Timed

/-! ## No task twice -/

/-- The tasks that `select` picks from the events of submits. -/
def Event.keyOf (select : SubmitEvent → Option Slot) : Event → Option TaskKey
  | .submit id e => (select e).map (slotKey id)
  | _ => none

theorem mem_keyOf {select : SubmitEvent → Option Slot} {hist : List Event} {key : TaskKey}
    (h : key ∈ hist.filterMap (Event.keyOf select)) :
    ∃ id slot, slot ∈ (eventsOf id hist).filterMap select ∧ slotKey id slot = key := by
  obtain ⟨e, hmem, hkey⟩ := List.mem_filterMap.mp h
  cases e with
  | submit id e =>
      obtain ⟨slot, hslot, rfl⟩ := Option.map_eq_some_iff.mp hkey
      exact ⟨id, slot, List.mem_filterMap.mpr ⟨e, mem_eventsOf.mpr hmem, hslot⟩, rfl⟩
  | enqueued => cases hkey
  | moved => cases hkey

theorem nodup_keyOf {select : SubmitEvent → Option Slot} {hist : List Event}
    (h : ∀ id, (((eventsOf id hist).filterMap select).map Slot.task).Nodup) :
    (hist.filterMap (Event.keyOf select)).Nodup := by
  induction hist with
  | nil => exact List.nodup_nil
  | cons e hist ih =>
      have hrest := ih fun id => (h id).sublist
        (((List.sublist_cons_self e hist).filterMap _).filterMap _ |>.map _)
      cases hkey : e.keyOf select with
      | none => rwa [List.filterMap_cons_none hkey]
      | some key =>
          rw [List.filterMap_cons_some hkey, List.nodup_cons]
          refine ⟨fun hmem => ?_, hrest⟩
          cases e with
          | enqueued => cases hkey
          | moved => cases hkey
          | submit id e =>
              obtain ⟨slot, hslot, rfl⟩ := Option.map_eq_some_iff.mp hkey
              obtain ⟨id', slot', hmem', he⟩ := mem_keyOf hmem
              cases congrArg TaskKey.queueTask he
              -- The same task again among the events of the submit.
              have hnodup := h id
              rw [show eventsOf id (.submit id e :: hist) = e :: eventsOf id hist from
                List.filterMap_cons_some (if_pos rfl), List.filterMap_cons_some hslot, List.map_cons,
                List.nodup_cons] at hnodup
              exact hnodup.1 (List.mem_map.mpr ⟨slot', hmem', task_of_slotKey he⟩)

namespace Sys.Inv

variable {W : Type} {y : Sys W}

theorem nodup_reserved (h : y.Inv) (id : RknpuQueueTaskId) :
    ((reservedSlots (eventsOf id y.hist)).map Slot.task).Nodup := by
  by_cases hid : id ∈ enqueuedIds y.hist
  · obtain ⟨queued, timeNs, hmem⟩ := mem_enqueuedIds.mp hid
    obtain ⟨hfits, ℓ, hreach, _⟩ := h.lives id queued timeNs hmem
    exact (hreach.inv hfits).nodup_reserved
  · rw [(h.unknown id hid).1]
    exact List.nodup_nil

/-- What was harvested was reserved. -/
theorem nodup_harvested (h : y.Inv) (id : RknpuQueueTaskId) :
    ((harvestedSlots (eventsOf id y.hist)).map Slot.task).Nodup := by
  by_cases hid : id ∈ enqueuedIds y.hist
  · obtain ⟨queued, timeNs, hmem⟩ := mem_enqueuedIds.mp hid
    obtain ⟨_, ℓ, hreach, _⟩ := h.lives id queued timeNs hmem
    have hperm := (hreach.balance.map Slot.task).nodup_iff.mp (h.nodup_reserved id)
    rw [List.map_append, List.nodup_append] at hperm
    exact hperm.1.sublist ((harvestedSlots_sublist _).map _)
  · rw [(h.unknown id hid).1]
    exact List.nodup_nil

end Sys.Inv

end Rknpu.Service
