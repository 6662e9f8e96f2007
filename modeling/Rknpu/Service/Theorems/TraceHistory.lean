import Rknpu.Service.Lemmas.TraceLog
import Rknpu.Service.Theorems.Latency

/-!
# The schedule trace as a history

With every event type enabled before the first enqueue, and as long as the buffer does not overflow, the records tell
what the threads and the worker did. The records of the enqueues may come late and in another order.
-/

namespace Rknpu.Service

open Queue

namespace Timed

/-- A thread has enqueued the submit and has still to push the record. -/
def EnqueuePending (s : Timed) (id : RknpuQueueTaskId) : Prop :=
  ∃ (thread : Nat) (r : RknpuScheduleTraceRecord), s.threads[thread]? = some (.enqueued r) ∧ r.queueTask = id

/-- The worker is between the reservation of the task and the push of the record of its outcome. -/
def OutcomePending (s : Timed) (key : TaskKey) : Prop :=
  key ∈ s.openKeys ∨ ∃ r ∈ s.records, r.outcomeKey = some key

/-- What the records say. -/
structure TellsHistory (s : Timed) : Prop where
  /-- Every submit has one ENQUEUE record once its thread has pushed it. -/
  enqueued : ∀ id queued timeNs, .enqueued id queued timeNs ∈ s.clients.sys.hist → ¬ s.EnqueuePending id →
    ∃ r, s.log.filter (fun r => r.eventType = rknpuScheduleEventEnqueue ∧ r.queueTask = id) = [r] ∧
      r.timestampNs = timeNs
  /-- No DISPATCH record is older than the enqueue of its submit. -/
  dispatched : ∀ d ∈ s.log, d.eventType = rknpuScheduleEventDispatch →
    (∃ queued timeNs, .enqueued d.queueTask queued timeNs ∈ s.clients.sys.hist ∧ timeNs ≤ d.timestampNs) ∧
    ∀ e ∈ s.log, e.eventType = rknpuScheduleEventEnqueue → e.queueTask = d.queueTask → e.timestampNs ≤ d.timestampNs
  reservedOnce : (s.clients.sys.hist.filterMap Event.reservedKey).Nodup
  /-- Every reservation has one DISPATCH or FAILED record once the worker has pushed it. -/
  reserved : ∀ id slot, .submit id (.reserved slot) ∈ s.clients.sys.hist → ¬ s.OutcomePending (slotKey id slot) →
    ∃ r, s.log.filter (fun r => (r.eventType = rknpuScheduleEventDispatch ∨ r.eventType = rknpuScheduleEventFailed) ∧
      r.key = slotKey id slot) = [r]
  /-- Before a COMPLETE record there is one DISPATCH record of its task, not younger, and no COMPLETE record. -/
  completed : ∀ before c after, s.log = before ++ c :: after → c.eventType = rknpuScheduleEventComplete →
    (∃ d, before.filter (fun d => d.eventType = rknpuScheduleEventDispatch ∧ d.key = c.key) = [d] ∧
      d.timestampNs ≤ c.timestampNs) ∧
    ∀ c' ∈ before, c'.eventType = rknpuScheduleEventComplete → c'.key ≠ c.key

end Timed

/-! ## Marks and records -/

namespace RknpuScheduleTraceRecord

variable {r : RknpuScheduleTraceRecord}

theorem enqueueMark_eq_some_iff {mark : UInt64 × UInt64} : r.enqueueMark = some mark ↔
    r.eventType = rknpuScheduleEventEnqueue ∧ (r.queueTask, r.timestampNs) = mark := by
  unfold enqueueMark
  rw [Option.ite_none_right_eq_some, Option.some.injEq]

theorem enqueueId_eq_some_iff {id : UInt64} : r.enqueueMark.map Prod.fst = some id ↔
    r.eventType = rknpuScheduleEventEnqueue ∧ r.queueTask = id := by
  unfold enqueueMark
  split
  · rename_i hkind
    simp [hkind]
  · rename_i hkind
    simp [hkind]

theorem outcomeKey_eq_some_iff {key : TaskKey} : r.outcomeKey = some key ↔
    (r.eventType = rknpuScheduleEventDispatch ∨ r.eventType = rknpuScheduleEventFailed) ∧ r.key = key := by
  unfold outcomeKey
  rw [Option.ite_none_right_eq_some, Option.some.injEq]

theorem workerMark_of_dispatch (h : r.eventType = rknpuScheduleEventDispatch) :
    r.workerMark = some (.dispatch r.key r.timestampNs) := if_pos h

theorem workerMark_of_complete (h : r.eventType = rknpuScheduleEventComplete) :
    r.workerMark = some (.complete r.key r.timestampNs) := by
  unfold workerMark
  rw [if_neg (by rw [h]; decide), if_pos h]

theorem of_workerMark_dispatch {key : TaskKey} {timeNs : UInt64} (h : r.workerMark = some (.dispatch key timeNs)) :
    r.eventType = rknpuScheduleEventDispatch ∧ r.key = key ∧ r.timestampNs = timeNs := by
  unfold workerMark at h
  split at h
  · injection h with h
    injection h with hkey htime
    exact ⟨‹_›, hkey, htime⟩
  · split at h <;> cases h

end RknpuScheduleTraceRecord

namespace Event

variable {e : Event} {key : TaskKey} {timeNs : UInt64}

theorem of_workerMark_dispatch (h : e.workerMark = some (.dispatch key timeNs)) :
    ∃ id slot, e = .submit id (.launched slot timeNs) ∧ slotKey id slot = key := by
  cases e with
  | submit id e =>
      cases e with
      | launched slot t =>
          cases h
          exact ⟨id, slot, rfl, rfl⟩
      | _ => cases h
  | enqueued => cases h
  | moved => cases h

theorem of_workerMark_complete (h : e.workerMark = some (.complete key timeNs)) :
    ∃ id slot status, e = .submit id (.harvested slot status timeNs) ∧ slotKey id slot = key := by
  cases e with
  | submit id e =>
      cases e with
      | harvested slot status t =>
          cases h
          exact ⟨id, slot, status, rfl, rfl⟩
      | _ => cases h
  | enqueued => cases h
  | moved => cases h

end Event

/-- The task of a completion. -/
def WorkerMark.completeKey : WorkerMark → Option TaskKey
  | .complete key _ => some key
  | .dispatch _ _ => none

/-! ## What the records tell -/

namespace Timed.Faithful

variable {s : Timed}

theorem nodup_reservedKey (hinv : s.clients.sys.Inv) : (s.clients.sys.hist.filterMap Event.reservedKey).Nodup := by
  have hnodup := nodup_keyOf hinv.nodup_reserved
  convert hnodup using 3 with e
  cases e with
  | submit id e => cases e <;> rfl
  | enqueued => rfl
  | moved => rfl

/-- Every outcome in the trace is one of its own. -/
theorem nodup_outcomeKey (h : s.Faithful) (hinv : s.clients.sys.Inv) :
    (s.log.filterMap RknpuScheduleTraceRecord.outcomeKey).Nodup := by
  have hnodup := nodup_reservedKey hinv
  rw [h.outcomes, List.filterMap_append] at hnodup
  exact hnodup.sublist ((List.sublist_append_left _ _).trans (List.sublist_append_left _ _))

theorem exists_enqueued (h : s.Faithful) {r : RknpuScheduleTraceRecord} (hr : r ∈ s.log)
    (hkind : r.eventType = rknpuScheduleEventEnqueue) :
    ∃ queued, .enqueued r.queueTask queued r.timestampNs ∈ s.clients.sys.hist := by
  have hmark := RknpuScheduleTraceRecord.enqueueMark_eq_some_iff.mpr ⟨hkind, rfl⟩
  have hhist := h.enqueues.mem_iff.mp (List.mem_filterMap.mpr ⟨r, List.mem_append_left _ hr, hmark⟩)
  obtain ⟨e, he, heq⟩ := List.mem_filterMap.mp hhist
  cases e with
  | enqueued id queued timeNs =>
      cases heq
      exact ⟨queued, he⟩
  | submit => cases heq
  | moved => cases heq

theorem enqueued (h : s.Faithful) (hinv : s.clients.sys.Inv) {id : RknpuQueueTaskId} {queued : RknpuQueuedSubmit}
    {timeNs : UInt64} (hmem : .enqueued id queued timeNs ∈ s.clients.sys.hist) (hpending : ¬ s.EnqueuePending id) :
    ∃ r, s.log.filter (fun r => r.eventType = rknpuScheduleEventEnqueue ∧ r.queueTask = id) = [r] ∧
      r.timestampNs = timeNs := by
  have hids : (s.clients.sys.hist.filterMap Event.enqueueMark).map Prod.fst = enqueuedIds s.clients.sys.hist := by
    rw [List.map_filterMap]
    refine congrArg (List.filterMap · _) (funext fun e => ?_)
    cases e <;> rfl
  have hperm := h.enqueues.map Prod.fst
  rw [hids, List.map_filterMap, List.filterMap_append] at hperm
  have hnodup := hperm.nodup_iff.mpr hinv.nodup
  have hid := hperm.mem_iff.mpr (mem_enqueuedIds.mpr ⟨queued, timeNs, hmem⟩)
  have hlog : id ∈ s.log.filterMap fun r => r.enqueueMark.map Prod.fst := by
    refine (List.mem_append.mp hid).resolve_right fun hlate => hpending ?_
    obtain ⟨r, hr, hmark⟩ := List.mem_filterMap.mp hlate
    obtain ⟨thread, hthread⟩ := mem_pendingEnqueues hr
    exact ⟨thread, r, hthread, (RknpuScheduleTraceRecord.enqueueId_eq_some_iff.mp hmark).2⟩
  obtain ⟨r, hr, hmark⟩ := List.exists_filter_eq_singleton (hnodup.sublist (List.sublist_append_left _ _)) hlog
  refine ⟨r, ?_, ?_⟩
  · rw [← hr]
    exact List.filter_congr fun r _ => decide_eq_decide.mpr RknpuScheduleTraceRecord.enqueueId_eq_some_iff.symm
  · -- The time of the record is the time of the enqueue with this id.
    have hin : r ∈ s.log := List.mem_of_mem_filter (hr ▸ List.mem_cons_self)
    obtain ⟨hkind, hid⟩ := RknpuScheduleTraceRecord.enqueueId_eq_some_iff.mp hmark
    obtain ⟨queued', he⟩ := h.exists_enqueued hin hkind
    rw [hid] at he
    exact (hinv.enqueued_unique he hmem).2

theorem dispatched (h : s.Faithful) (hinv : s.clients.sys.Inv) {start : UInt64} (hclock : s.Clock start)
    {d : RknpuScheduleTraceRecord} (hd : d ∈ s.log) (hkind : d.eventType = rknpuScheduleEventDispatch) :
    (∃ queued timeNs, .enqueued d.queueTask queued timeNs ∈ s.clients.sys.hist ∧ timeNs ≤ d.timestampNs) ∧
    ∀ e ∈ s.log, e.eventType = rknpuScheduleEventEnqueue → e.queueTask = d.queueTask →
      e.timestampNs ≤ d.timestampNs := by
  have hmark : .dispatch d.key d.timestampNs ∈ s.clients.sys.hist.filterMap Event.workerMark := by
    rw [h.marks]
    exact List.mem_filterMap.mpr
      ⟨d, List.mem_append_left _ hd, RknpuScheduleTraceRecord.workerMark_of_dispatch hkind⟩
  obtain ⟨e, he, heq⟩ := List.mem_filterMap.mp hmark
  obtain ⟨id, slot, rfl, hkey⟩ := Event.of_workerMark_dispatch heq
  have hid : id = d.queueTask := congrArg TaskKey.queueTask hkey
  subst hid
  have hle : ∀ {queued timeNs}, .enqueued d.queueTask queued timeNs ∈ s.clients.sys.hist → timeNs ≤ d.timestampNs :=
    fun hmem => hclock.launched _ _ _ _ _ hmem he
  have hknown : d.queueTask ∈ enqueuedIds s.clients.sys.hist := by
    by_contra hno
    rw [← mem_eventsOf, (hinv.unknown _ hno).1] at he
    cases he
  obtain ⟨queued, timeNs, hmem⟩ := mem_enqueuedIds.mp hknown
  refine ⟨⟨queued, timeNs, hmem, hle hmem⟩, fun r hr hrkind hrid => ?_⟩
  obtain ⟨queued', hmem'⟩ := h.exists_enqueued hr hrkind
  rw [hrid] at hmem'
  exact hle hmem'

theorem reserved (h : s.Faithful) (hinv : s.clients.sys.Inv) {id : RknpuQueueTaskId} {slot : Slot}
    (hmem : .submit id (.reserved slot) ∈ s.clients.sys.hist) (hpending : ¬ s.OutcomePending (slotKey id slot)) :
    ∃ r, s.log.filter (fun r => (r.eventType = rknpuScheduleEventDispatch ∨ r.eventType = rknpuScheduleEventFailed) ∧
      r.key = slotKey id slot) = [r] := by
  have hkey : slotKey id slot ∈ s.clients.sys.hist.filterMap Event.reservedKey :=
    List.mem_filterMap.mpr ⟨_, hmem, rfl⟩
  rw [h.outcomes, List.filterMap_append, List.mem_append, List.mem_append] at hkey
  rcases hkey with (hlog | hrecords) | hopen
  · obtain ⟨r, hr, _⟩ := List.exists_filter_eq_singleton (h.nodup_outcomeKey hinv) hlog
    refine ⟨r, ?_⟩
    rw [← hr]
    exact List.filter_congr fun r _ => decide_eq_decide.mpr RknpuScheduleTraceRecord.outcomeKey_eq_some_iff.symm
  · obtain ⟨r, hr, hkey⟩ := List.mem_filterMap.mp hrecords
    exact (hpending (.inr ⟨r, hr, hkey⟩)).elim
  · exact (hpending (.inl hopen)).elim

/-- The completions in the trace are of different tasks. -/
theorem nodup_completeKey (h : s.Faithful) (hinv : s.clients.sys.Inv) :
    (s.log.filterMap fun r => r.workerMark.bind WorkerMark.completeKey).Nodup := by
  have hnodup : (s.clients.sys.hist.filterMap fun e => e.workerMark.bind WorkerMark.completeKey).Nodup := by
    have hnodup := nodup_keyOf hinv.nodup_harvested
    convert hnodup using 3 with e
    cases e with
    | submit id e => cases e <;> rfl
    | enqueued => rfl
    | moved => rfl
  rw [← List.filterMap_filterMap, h.marks, List.filterMap_filterMap, List.filterMap_append] at hnodup
  exact hnodup.sublist (List.sublist_append_left _ _)

theorem completed (h : s.Faithful) (hinv : s.clients.sys.Inv) {start : UInt64} (hclock : s.Clock start)
    (hfirst : LaunchedFirst s.clients.sys.hist) {before after : List RknpuScheduleTraceRecord}
    {c : RknpuScheduleTraceRecord} (hlog : s.log = before ++ c :: after)
    (hkind : c.eventType = rknpuScheduleEventComplete) :
    (∃ d, before.filter (fun d => d.eventType = rknpuScheduleEventDispatch ∧ d.key = c.key) = [d] ∧
      d.timestampNs ≤ c.timestampNs) ∧
    ∀ c' ∈ before, c'.eventType = rknpuScheduleEventComplete → c'.key ≠ c.key := by
  have hmark := RknpuScheduleTraceRecord.workerMark_of_complete hkind
  constructor
  · have hmarks := h.marks
    rw [hlog, List.append_assoc, List.filterMap_append, List.cons_append, List.filterMap_cons_some hmark] at hmarks
    -- The completion stands in the history behind the dispatches that the earlier records tell of.
    obtain ⟨hist₁, e, hist₂, hhist, hbefore, he⟩ := List.exists_of_filterMap_eq_append_cons hmarks
    obtain ⟨id, slot, status, rfl, hkey⟩ := Event.of_workerMark_complete he
    obtain ⟨timeNs, hlaunched⟩ := hfirst hist₁ id slot status c.timestampNs hist₂ hhist
    have hle : timeNs ≤ c.timestampNs := by
      have hpairs := hclock.harvested
      rw [hhist, List.pairwise_append] at hpairs
      exact hpairs.2.2 _ hlaunched _ List.mem_cons_self _ _ _ _ _ _ _ rfl rfl
    have hdispatch : WorkerMark.dispatch c.key timeNs ∈ before.filterMap RknpuScheduleTraceRecord.workerMark := by
      rw [← hbefore, ← hkey]
      exact List.mem_filterMap.mpr ⟨_, hlaunched, rfl⟩
    obtain ⟨d, hd, hdmark⟩ := List.mem_filterMap.mp hdispatch
    obtain ⟨hdkind, hdkey, rfl⟩ := RknpuScheduleTraceRecord.of_workerMark_dispatch hdmark
    have hnodup := h.nodup_outcomeKey hinv
    rw [hlog, List.filterMap_append, List.nodup_append] at hnodup
    have houtcome : d.outcomeKey = some c.key :=
      RknpuScheduleTraceRecord.outcomeKey_eq_some_iff.mpr ⟨.inl hdkind, hdkey⟩
    obtain ⟨r, hr, _⟩ := List.exists_filter_eq_singleton hnodup.1 (List.mem_filterMap.mpr ⟨d, hd, houtcome⟩)
    have hdr : d ∈ [r] := by
      rw [← hr]
      exact List.mem_filter.mpr ⟨hd, decide_eq_true houtcome⟩
    cases List.mem_singleton.mp hdr
    refine ⟨d, ?_, hle⟩
    calc before.filter (fun d => d.eventType = rknpuScheduleEventDispatch ∧ d.key = c.key)
      _ = (before.filter fun d => d.outcomeKey = some c.key).filter fun d => d.eventType = rknpuScheduleEventDispatch := by
        rw [List.filter_filter]
        refine List.filter_congr fun r _ => ?_
        rw [← Bool.decide_and, decide_eq_decide, RknpuScheduleTraceRecord.outcomeKey_eq_some_iff]
        exact ⟨fun h => ⟨h.1, .inl h.1, h.2⟩, fun h => ⟨h.1, h.2.2⟩⟩
      _ = [d] := by rw [hr, List.filter_singleton, decide_eq_true hdkind]; rfl
  · intro c' hc' hkind' hkey
    have hmark' := RknpuScheduleTraceRecord.workerMark_of_complete hkind'
    have hnodup := h.nodup_completeKey hinv
    rw [hlog, List.filterMap_append, List.nodup_append] at hnodup
    refine hnodup.2.2 c.key (List.mem_filterMap.mpr ⟨c', hc', ?_⟩) c.key (List.mem_filterMap.mpr ⟨c, List.mem_cons_self, ?_⟩) rfl
    · rw [hmark', ← hkey]
      rfl
    · rw [hmark]
      rfl

end Timed.Faithful

/-- In every run of at most `2 ^ 64` submits that enables all event types before its first enqueue and does not fill the
buffer, the trace tells the history. -/
theorem schedule_trace_tells_history {start : UInt64} {acts : List TimedAct} {s : Timed}
    (hrun : (timed start).run acts = some s) (htraced : Traced start acts)
    (hfull : s.schedule.buffer.log.overflowed = false) (hfit : s.clients.sys.IdsFit) : s.TellsHistory := by
  have hfaithful := Timed.faithful_of_run hrun htraced hfit hfull
  have hclock := Timed.clock_of_run hrun hfit
  obtain ⟨sysActs, hsys⟩ := Timed.sys_of_run hrun
  have hinv := Sys.inv_of_run hsys hfit
  have hfirst := (Sys.launches_of_run hsys hfit).first
  exact {
    enqueued := fun _ _ _ hmem hpending => hfaithful.enqueued hinv hmem hpending
    dispatched := fun _ hd hkind => hfaithful.dispatched hinv hclock hd hkind
    reservedOnce := Timed.Faithful.nodup_reservedKey hinv
    reserved := fun _ _ hmem hpending => hfaithful.reserved hinv hmem hpending
    completed := fun _ _ _ hlog hkind => hfaithful.completed hinv hclock hfirst hlog hkind }

theorem schedule_trace_tells_history_one : ∃ s : Timed,
    (timed 1).run (.configure rknpuScheduleEventAll :: (enqueueOne 0 2 ++ [.decide, .submitStep 3] ++ finishOne 0 4)) =
      some s ∧
    s.log.map (·.eventType) = [rknpuScheduleEventEnqueue, rknpuScheduleEventDispatch, rknpuScheduleEventComplete] ∧
    s.TellsHistory := by
  obtain ⟨s, hrun, hs⟩ := (Option.any_eq_true (fun s : Timed => decide (s.clients.sys.IdsFit ∧
    s.schedule.buffer.log.overflowed = false ∧ s.log.map (·.eventType) =
      [rknpuScheduleEventEnqueue, rknpuScheduleEventDispatch, rknpuScheduleEventComplete])) _).mp
    (show ((timed 1).run (.configure rknpuScheduleEventAll ::
      (enqueueOne 0 2 ++ [.decide, .submitStep 3] ++ finishOne 0 4))).any _ = true by decide +kernel)
  obtain ⟨hfit, hfull, hlog⟩ := of_decide_eq_true hs
  have htraced : Traced 1 (.configure rknpuScheduleEventAll ::
      (enqueueOne 0 2 ++ [.decide, .submitStep 3] ++ finishOne 0 4)) := by
    refine ⟨[], _, _, rfl, rfl, rfl, fun a ha eventMask he => ?_⟩
    subst he
    simp [enqueueOne, finishOne] at ha
  exact ⟨s, hrun, hlog, schedule_trace_tells_history hrun htraced hfull hfit⟩

/-- One thread enqueues a submit, `n` threads stall before they push their records, and another one enqueues a submit. -/
def collidingRun (n : Nat) : List TimedAct :=
  .configure rknpuScheduleEventAll :: (enqueueOne 0 1 ++
    (Timed.stalledCalls (twoLanes 1 ⟨0, 1⟩ ⟨0, 0⟩) [plainTask] 1 1 n ++ enqueueOne (n + 1) 1))

theorem traced_collidingRun (n : Nat) : Traced 1 (collidingRun n) := by
  refine ⟨[], _, Timed.init 1, rfl, rfl, rfl, fun a ha eventMask he => ?_⟩
  subst he
  rcases List.mem_append.mp ha with ha | ha
  · simp [enqueueOne] at ha
  rcases List.mem_append.mp ha with ha | ha
  · obtain ⟨thread, _, ha⟩ := List.mem_flatMap.mp ha
    simp [Timed.stalledCall] at ha
  · simp [enqueueOne] at ha

/-- The state after the first submit of the colliding run. -/
def afterFirst : Timed :=
  Timed.enqueued { Timed.init 1 with schedule := ScheduleTrace.new.configureScheduleTrace rknpuScheduleEventAll } 0
    (twoLanes 1 ⟨0, 1⟩ ⟨0, 0⟩) [plainTask]

theorem run_collidingRun {n : Nat} (hn : n + 1 = 2 ^ 64) : ∃ s₂, afterFirst.StallsTo 1 n s₂ ∧
    s₂.clients.sys.nextQueueTaskId = 1 ∧
    (timed 1).run (collidingRun n) = some (s₂.enqueued (n + 1) (twoLanes 1 ⟨0, 1⟩ ⟨0, 0⟩) [plainTask]) := by
  have haccepted : Accepted (twoLanes 1 ⟨0, 1⟩ ⟨0, 0⟩) [plainTask] := ⟨rfl, rfl⟩
  generalize hs₀ : ({ Timed.init 1 with
    schedule := ScheduleTrace.new.configureScheduleTrace rknpuScheduleEventAll } : Timed) = s₀
  have hfree₀ : ∀ thread, s₀.Free thread := fun thread => hs₀ ▸
    ⟨Std.ExtTreeMap.getElem?_empty, by simp [Timed.init, Clients.outside, Clients.init]⟩
  have hfirst : afterFirst = s₀.enqueued 0 (twoLanes 1 ⟨0, 1⟩ ⟨0, 0⟩) [plainTask] := by rw [← hs₀]; rfl
  have hnow₀ : s₀.now = 1 := by rw [← hs₀]; rfl
  have hrun₁ : (timed 1).runFrom s₀ (enqueueOne 0 1) = some afterFirst := by
    have hrun := Timed.runFrom_enqueueCall (s := s₀) 1 haccepted (hfree₀ 0) (by rw [← hs₀]; rfl)
    rw [hnow₀, ← hfirst] at hrun
    exact hrun
  obtain ⟨s₂, hrun₂, hs₂⟩ : ∃ s₂, (timed 1).runFrom afterFirst
      (Timed.stalledCalls (twoLanes 1 ⟨0, 1⟩ ⟨0, 0⟩) [plainTask] 1 1 n) = some s₂ ∧ afterFirst.StallsTo 1 n s₂ :=
    Timed.runFrom_stalledCalls haccepted n 1 rfl
      fun thread hle => hfirst ▸ (hfree₀ thread).enqueued (by omega)
  have hnext : s₂.clients.sys.nextQueueTaskId = 1 := by
    rw [hs₂.next, ← UInt64.toNat_inj, UInt64.toNat_add, UInt64.toNat_ofNat_of_lt' (by change n < 2 ^ 64; omega)]
    change (2 + n) % 2 ^ 64 = 1
    omega
  have hrun₃ := Timed.runFrom_enqueueCall (s := s₂) 1 haccepted (hs₂.free (n + 1) (by omega)) hs₂.harvesting
  rw [show s₂.now = 1 from hs₂.now] at hrun₃
  refine ⟨s₂, hs₂, hnext, ?_⟩
  have hconfigure : (timed 1).step (timed 1).init (.configure rknpuScheduleEventAll) = some s₀ := hs₀ ▸ rfl
  rw [Machine.run, collidingRun, Machine.runFrom, hconfigure, Option.bind_some, Machine.runFrom_append, hrun₁, Option.bind_some, Machine.runFrom_append, hrun₂, Option.bind_some]
  exact hrun₃

/-- When the ids have come round, two submits have the same id and there are two ENQUEUE records of it. -/
theorem schedule_trace_wrapped : ∃ (acts : List TimedAct) (s : Timed), (timed 1).run acts = some s ∧ Traced 1 acts ∧
    s.schedule.buffer.log.overflowed = false ∧ ¬ s.TellsHistory := by
  obtain ⟨n, hn⟩ : ∃ n, n + 1 = 2 ^ 64 := ⟨2 ^ 64 - 1, by norm_num⟩
  obtain ⟨s₂, hs₂, hnext, hrun⟩ := run_collidingRun hn
  have hschedule : (s₂.enqueued (n + 1) (twoLanes 1 ⟨0, 1⟩ ⟨0, 0⟩) [plainTask]).schedule =
      afterFirst.schedule.recordScheduleEvent (enqueueRecord 1 (twoLanes 1 ⟨0, 1⟩ ⟨0, 0⟩) [plainTask] 1) := by
    change s₂.schedule.recordScheduleEvent (enqueueRecord s₂.clients.sys.nextQueueTaskId _ _ s₂.now) = _
    rw [hs₂.schedule, hnext, hs₂.now]
    rfl
  refine ⟨collidingRun n, _, hrun, traced_collidingRun n, ?_, fun h => ?_⟩
  · rw [hschedule]
    decide +kernel
  · have hmem : .enqueued 1 (queuedSubmit (twoLanes 1 ⟨0, 1⟩ ⟨0, 0⟩) [plainTask] 1) 1 ∈
        (s₂.enqueued (n + 1) (twoLanes 1 ⟨0, 1⟩ ⟨0, 0⟩) [plainTask]).clients.sys.hist :=
      List.mem_append_left _ (hs₂.hist.subset List.mem_cons_self)
    have hpushed : ¬ (s₂.enqueued (n + 1) (twoLanes 1 ⟨0, 1⟩ ⟨0, 0⟩) [plainTask]).EnqueuePending 1 := by
      rintro ⟨thread, r, hthread, hid⟩
      rcases hs₂.pending thread r hthread with hthread | ⟨i, hi, hid'⟩
      · cases Std.ExtTreeMap.getElem?_empty.symm.trans hthread
      · rw [hid, show afterFirst.clients.sys.nextQueueTaskId = 2 from rfl, ← UInt64.toNat_inj, UInt64.toNat_add,
          UInt64.toNat_ofNat_of_lt' (by change i < 2 ^ 64; omega)] at hid'
        change 1 = (2 + i) % 2 ^ 64 at hid'
        omega
    have htwo : ((afterFirst.schedule.recordScheduleEvent (enqueueRecord 1 (twoLanes 1 ⟨0, 1⟩ ⟨0, 0⟩) [plainTask]
        1)).buffer.log.entries.filter fun r => r.eventType = rknpuScheduleEventEnqueue ∧ r.queueTask = 1).length = 2 := by
      decide +kernel
    obtain ⟨r, hr, _⟩ := h.enqueued _ _ _ hmem hpushed
    rw [Timed.log, hschedule] at hr
    rw [hr] at htwo
    cases htwo

end Rknpu.Service
