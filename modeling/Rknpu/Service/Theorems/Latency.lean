import Rknpu.Service.Lemmas.TimedRounds
import Rknpu.Service.Theorems.Completion

/-!
# The latencies that a submit reports

A submit that returns without an error pushes the five times of its life into the submit trace. They are in order, and
each of them is the time of the event that it is named after.
-/

namespace Rknpu.Service

open Queue

/-- What the record says about the history. -/
structure Reported (hist : List Event) (record : RknpuSubmitTraceRecord) : Prop where
  t0_le : record.t0Ns ≤ record.t1Ns
  t1_le : record.t1Ns ≤ record.t2Ns
  t2_le : record.t2Ns ≤ record.t3Ns
  t3_le : record.t3Ns ≤ record.t4Ns
  first : firstLaunch (eventsOf record.queueTask hist) = some record.t2Ns
  ended : ∃ queued, .enqueued record.queueTask queued record.t1Ns ∈ hist ∧
    EndsAt record.queueTask queued (eventsOf record.queueTask hist) record.t3Ns

theorem Reported.mono {hist hist' : List Event} {record : RknpuSubmitTraceRecord} (h : Reported hist record)
    (hpre : hist <+: hist') : Reported hist' record := by
  obtain ⟨evs, rfl⟩ := hpre
  obtain ⟨queued, hmem, hended⟩ := h.ended
  refine { h with first := ?_, ended := ⟨queued, List.mem_append_left _ hmem, ?_⟩ }
  · rw [eventsOf_append, firstLaunch_append, h.first]
    rfl
  · rw [eventsOf_append]
    exact hended.append _

/-- The submit that ended has a first dispatch, and it is not younger than the end. -/
theorem firstLaunch_le_of_endsAt {hist : List Event} {id : RknpuQueueTaskId} {queued : RknpuQueuedSubmit}
    {timeNs : UInt64} (hended : EndsAt id queued (eventsOf id hist) timeNs) (hfirst : LaunchedFirst hist)
    (hle : hist.Pairwise LaunchLe) :
    ∃ t, firstLaunch (eventsOf id hist) = some t ∧ t ≤ timeNs := by
  obtain ⟨before, slot, status, after, _, _, hevs, _⟩ := hended
  obtain ⟨hist₁, hist₂, hhist, hbefore⟩ := exists_of_eventsOf hevs
  -- The task that completed was launched before, so the first launch is among the events before the end.
  obtain ⟨t', hlaunched⟩ := hfirst hist₁ id slot status timeNs hist₂ hhist
  have hsome := isSome_firstLaunch (hbefore ▸ mem_eventsOf.mpr hlaunched)
  obtain ⟨t, ht⟩ := Option.isSome_iff_exists.mp hsome
  obtain ⟨slot', hmem⟩ := firstLaunch_mem ht
  rw [← hbefore, mem_eventsOf] at hmem
  refine ⟨t, by rw [hevs, firstLaunch_append, ht]; rfl, ?_⟩
  rw [hhist, List.pairwise_append] at hle
  exact hle.2.2 _ hmem _ List.mem_cons_self id slot' t id slot status timeNs rfl rfl

theorem lastError_of_result {finished : CompletedSubmit} {tasksCopy headerCopy : Except RknpuServiceError Unit} {n : Nat}
    (h : (Outcome.replied finished tasksCopy headerCopy).result = .ok n) : finished.lastError = none := by
  cases tasksCopy with
  | error => cases h
  | ok =>
      cases headerCopy with
      | error => cases h
      | ok =>
          cases he : finished.lastError with
          | none => rfl
          | some err => simp [Outcome.result, he, bind, Except.bind, throw, throwThe, MonadExceptOf.throw] at h

/-- The record that a successful call is about to push. -/
theorem reported_of_copyBack {start : UInt64} (hstart : 0 < start) {acts : List TimedAct} {s : Timed}
    (hrun : (timed start).run acts = some s) (hfit : s.clients.sys.IdsFit) {thread : Nat} {submit : RknpuSubmit}
    {tasks : List RknpuTask} {taskId : RknpuQueueTaskId} {finished : CompletedSubmit} {timeNs : UInt64}
    (hcall : s.clients.calls[thread]? = some ⟨submit, tasks, .copying taskId finished⟩)
    (herr : finished.lastError = none) (hnow : s.now ≤ timeNs) :
    Reported s.clients.sys.hist (submitRecord taskId finished.latency timeNs) := by
  have hclock := Timed.clock_of_run hrun hfit
  obtain ⟨clientActs, hclients⟩ := Timed.run_clients hrun
  obtain ⟨sysActs, hsys⟩ := Timed.sys_of_run hrun
  have hrec := Clients.recorded_of_run hclients hfit hcall
  obtain ⟨_, t0Ns, t1Ns, henqueued⟩ := hrec.enqueued taskId rfl
  obtain ⟨t, htaken, rfl⟩ := hrec.taken taskId finished rfl
  obtain ⟨ℓ, hreach, _, ht0, ht1⟩ := Sys.stamped_of_run hsys hfit _ _ _ henqueued
  have htask := hreach.task_of_taken (mem_eventsOf.mpr htaken)
  have hgone := hreach.gone_of_taken (mem_eventsOf.mpr htaken)
  have hended := hreach.endsAt (by rw [hgone]; exact nofun) (by rw [htask]; exact herr)
  obtain ⟨t2Ns, hfirst, ht23⟩ :=
    firstLaunch_le_of_endsAt hended (Sys.launches_of_run hsys hfit).first hclock.harvested
  have hpos : ∀ slot t, .launched slot t ∈ eventsOf taskId s.clients.sys.hist → t ≠ 0 := by
    rintro slot t hmem rfl
    have hlow := (hclock.past _ (mem_eventsOf.mp hmem) 0 rfl).1
    exact UInt64.not_lt.mpr hlow hstart
  have ht2 := hreach.t2 (hclock.queued _ _ _ henqueued).2 hpos
  rw [hfirst, Option.getD_some] at ht2
  obtain ⟨slot, hlaunch⟩ := firstLaunch_mem hfirst
  rw [htask] at hended ht0 ht1 ht2 ht23
  obtain ⟨before, slot', status, after, _, _, hevs, _⟩ := id hended
  have hharvest : .submit taskId (.harvested slot' status t.latency.t3Ns) ∈ s.clients.sys.hist :=
    mem_eventsOf.mp (by rw [hevs]; simp)
  refine ⟨?_, ?_, ?_, ?_, ?_, ?_⟩
  · change t.latency.t0Ns ≤ t.latency.t1Ns
    rw [ht0, ht1]
    exact (hclock.queued _ _ _ henqueued).1
  · change t.latency.t1Ns ≤ t.latency.t2Ns
    rw [ht1, ht2]
    exact hclock.launched _ _ _ _ _ henqueued (mem_eventsOf.mp hlaunch)
  · change t.latency.t2Ns ≤ t.latency.t3Ns
    rw [ht2]
    exact ht23
  · exact UInt64.le_trans (hclock.past _ hharvest _ rfl).2 hnow
  · change firstLaunch (eventsOf taskId s.clients.sys.hist) = some t.latency.t2Ns
    rw [ht2]
    exact hfirst
  · refine ⟨_, ?_, hended⟩
    change .enqueued taskId _ t.latency.t1Ns ∈ s.clients.sys.hist
    rw [ht1]
    exact henqueued

/-! ## Every record -/

/-- The record is in the submit trace or about to be pushed. -/
def Timed.Reports (s : Timed) (record : RknpuSubmitTraceRecord) : Prop :=
  record ∈ s.submits.entries ∨ ∃ thread : Nat, s.threads[thread]? = some (.leaving record)

/-- Records come from calls that were copied back without an error. -/
theorem Timed.Reports.of_step {s s' : Timed} {a : TimedAct} {record : RknpuSubmitTraceRecord}
    (hs : s.step a = some s') (h : s'.Reports record) : s.Reports record ∨
      ∃ (thread : Nat) (submit : RknpuSubmit) (tasks : List RknpuTask) (taskId : RknpuQueueTaskId)
        (finished : CompletedSubmit) (timeNs : UInt64),
        s.clients.calls[thread]? = some ⟨submit, tasks, .copying taskId finished⟩ ∧ finished.lastError = none ∧
          s.now ≤ timeNs ∧ record = submitRecord taskId finished.latency timeNs := by
  have herase : ∀ {thread : Nat}, (∃ thread' : Nat, (s.threads.erase thread)[thread']? = some (.leaving record)) →
      s.Reports record := fun ⟨thread', ht⟩ => .inr ⟨thread', thread_of_erase ht⟩
  cases Timed.step_cases hs with
  | ioctl _ _ => exact .inl (h.imp_right fun ⟨thread, ht⟩ => ⟨thread, (thread_of_insert ht).resolve_right nofun⟩)
  | refused _ _ _ => exact .inl (h.elim .inl herase)
  | enter _ _ _ _ _ => exact .inl (h.imp_right fun ⟨thread, ht⟩ => ⟨thread, (thread_of_insert ht).resolve_right nofun⟩)
  | recordEnqueue _ => exact .inl (h.elim .inl herase)
  | copyBack _ hcall hresult hnow _ =>
      rcases h with h | ⟨thread', ht⟩
      · exact .inl (.inl h)
      · rcases thread_of_insert ht with ht | he
        · exact .inl (.inr ⟨thread', ht⟩)
        · cases he
          exact .inr ⟨_, _, _, _, _, _, hcall, lastError_of_result hresult, hnow, rfl⟩
  | @recordSubmit thread pushed hthread =>
      rcases h with h | ht
      · rcases BoundedLog.mem_entries_push h with h | rfl
        · exact .inl (.inl h)
        · exact .inl (.inr ⟨thread, hthread⟩)
      · exact .inl (herase ht)
  | resetSubmits => exact .inl (h.elim nofun .inr)
  | _ => exact .inl h

theorem Timed.reported_of_run {start : UInt64} (hstart : 0 < start) {acts : List TimedAct} {s : Timed}
    (hrun : (timed start).run acts = some s) (hfit : s.clients.sys.IdsFit) {record : RknpuSubmitTraceRecord}
    (h : s.Reports record) : Reported s.clients.sys.hist record := by
  refine Machine.run_induction (M := timed start) (P := fun _ s => s.clients.sys.IdsFit →
    ∀ record, s.Reports record → Reported s.clients.sys.hist record) ?_ ?_ hrun hfit record h
  · rintro _ record (h | ⟨thread, h⟩)
    · cases h
    · simp [timed, Timed.init] at h
  · intro _ s a s' hrun ih hs hfit' record h
    have hfit := idsFit_of_step hs hfit'
    have hpre : s.clients.sys.hist <+: s'.clients.sys.hist := hist_of_step hs
    rcases Reports.of_step hs h with h | ⟨thread, submit, tasks, taskId, finished, timeNs, hcall, herr, hnow, rfl⟩
    · exact (ih hfit record h).mono hpre
    · exact (reported_of_copyBack hstart hrun hfit hcall herr hnow).mono hpre

/-- In every run of at most `2 ^ 64` submits on a clock that starts above zero, the five times of each record that is
pushed into the submit trace are in order; `t2` is the time of the first accepted dispatch, and `t3` is the time of the
harvest at which the submit became terminal. -/
theorem submit_latency_ordered {start : UInt64} (hstart : 0 < start) {acts : List TimedAct} {s : Timed}
    (hrun : (timed start).run acts = some s) (hfit : s.clients.sys.IdsFit) {record : RknpuSubmitTraceRecord}
    (h : s.Reports record) :
    (record.t0Ns ≤ record.t1Ns ∧ record.t1Ns ≤ record.t2Ns ∧ record.t2Ns ≤ record.t3Ns ∧ record.t3Ns ≤ record.t4Ns) ∧
      firstLaunch (eventsOf record.queueTask s.clients.sys.hist) = some record.t2Ns ∧
      ∃ queued, .enqueued record.queueTask queued record.t1Ns ∈ s.clients.sys.hist ∧
        EndsAt record.queueTask queued (eventsOf record.queueTask s.clients.sys.hist) record.t3Ns := by
  have hreported := Timed.reported_of_run hstart hrun hfit h
  exact ⟨⟨hreported.t0_le, hreported.t1_le, hreported.t2_le, hreported.t3_le⟩, hreported.first, hreported.ended⟩

/-- The thread enqueues a submit of one task. -/
def enqueueOne (thread : Nat) (timeNs : UInt64) : List TimedAct :=
  [.ioctl thread timeNs, .enter thread (.ok (twoLanes 1 ⟨0, 1⟩ ⟨0, 0⟩)) (.ok [plainTask]) timeNs, .recordEnqueue thread]

/-- The task on core 0 is launched and completes, and the thread returns. -/
def finishOne (thread : Nat) (timeNs : UInt64) : List TimedAct :=
  [.launch 0, .record, .lookup thread, .completion ⟨0, 1, 0⟩ timeNs, .harvest 0 0, .record, .wake false, .signal,
    .wait thread (.ok ()), .take thread, .copyBack thread (.ok ()) (.ok ()) timeNs, .recordSubmit thread]

theorem submit_latency_ordered_one : ∃ (s : Timed) (record : RknpuSubmitTraceRecord),
    (timed 1).run (enqueueOne 0 2 ++ [.decide, .submitStep 3] ++ finishOne 0 4) = some s ∧
    s.submits.entries = [record] ∧ record.t1Ns ≤ record.t2Ns ∧
    firstLaunch (eventsOf record.queueTask s.clients.sys.hist) = some record.t2Ns := by
  obtain ⟨s, hrun, hs⟩ := (Option.any_eq_true (fun s : Timed => decide (s.clients.sys.IdsFit ∧
    s.submits.entries = [⟨1, 2, 2, 3, 4, 4⟩])) _).mp
    (show ((timed 1).run (enqueueOne 0 2 ++ [.decide, .submitStep 3] ++ finishOne 0 4)).any _ = true by decide +kernel)
  obtain ⟨hfit, hentries⟩ := of_decide_eq_true hs
  obtain ⟨hle, hfirst, _⟩ :=
    submit_latency_ordered (by decide) hrun hfit (.inl (hentries ▸ List.mem_cons_self))
  exact ⟨s, _, hrun, hentries, hle.2.1, hfirst⟩

/-- When the ids have come round, a dispatch that was under way is credited to a younger submit with the same id, and
its record says that it was dispatched before it was enqueued. -/
theorem submit_latency_wrapped : ∃ (acts : List TimedAct) (s : Timed) (record : RknpuSubmitTraceRecord),
    (timed 1).run acts = some s ∧ record ∈ s.submits.entries ∧ ¬ record.t1Ns ≤ record.t2Ns := by
  obtain ⟨acts, pre, z, hrun, hentries⟩ := Timed.exists_wrapped_run 1
    (enqueueOne 0 1 ++ [.decide, .submitStep 2]) (enqueueOne 2 5 ++ finishOne 2 6) 1
    (show Accepted (twoLanes 1 ⟨0, 1⟩ ⟨0, 0⟩) [plainTask] from ⟨rfl, rfl⟩)
    (p := fun z => z.submits.entries = [⟨1, 5, 5, 2, 6, 6⟩]) (by decide +kernel)
  refine ⟨acts, z.after pre, ⟨1, 5, 5, 2, 6, 6⟩, hrun, ?_, by decide⟩
  rw [show (z.after pre).submits = z.submits from rfl, hentries]
  exact List.mem_cons_self

end Rknpu.Service
