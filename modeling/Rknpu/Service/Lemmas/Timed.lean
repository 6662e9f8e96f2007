import Rknpu.Service.Lemmas.Clients
import Rknpu.Service.Lemmas.History
import Rknpu.Service.Timed

/-!
# The clock of a run

What the times in a history have to do with the clock: none is in the future, a dispatch is not older than the enqueue of
its submit, and a completion is not older than the dispatches before it. `Timed.Clock` holds in every run.
-/

namespace Rknpu.Service

open Queue

/-! ## The calls under the clock -/

namespace Timed

variable {s s' : Timed} {a : TimedAct}

theorem step_clients (h : s.step a = some s') :
    s'.clients = s.clients ∨ ∃ act, s.clients.step act = some s'.clients := by
  cases step_cases h with
  | refused _ _ hc => exact .inr ⟨_, hc⟩
  | enter _ _ _ _ hc => exact .inr ⟨_, hc⟩
  | call _ hc => exact .inr ⟨_, hc⟩
  | copyBack _ _ _ _ hc => exact .inr ⟨_, hc⟩
  | decide _ _ hc => exact .inr ⟨_, hc⟩
  | launch _ _ hc => exact .inr ⟨_, hc⟩
  | fail _ _ hc => exact .inr ⟨_, hc⟩
  | harvest _ hc => exact .inr ⟨_, hc⟩
  | wake _ hc => exact .inr ⟨_, hc⟩
  | signal hc => exact .inr ⟨_, hc⟩
  | _ => exact .inl rfl

/-- The calls of a timed run are a run of calls. -/
theorem run_clients {start : UInt64} {acts : List TimedAct} (hrun : (timed start).run acts = some s) :
    ∃ acts', Service.clients.run acts' = some s.clients := by
  refine Machine.run_induction (M := timed start) (P := fun _ s => ∃ acts', Service.clients.run acts' = some s.clients)
    ⟨[], rfl⟩ ?_ hrun
  rintro _ s a s' _ ⟨acts', hacts'⟩ hs
  rcases step_clients hs with he | ⟨act, hact⟩
  · exact ⟨acts', by rw [he]; exact hacts'⟩
  · exact ⟨acts' ++ [act], Machine.run_snoc hacts' hact⟩

theorem idsFit_of_step (h : s.step a = some s') (hfit : s'.clients.sys.IdsFit) : s.clients.sys.IdsFit := by
  rcases step_clients h with he | ⟨act, hact⟩
  · rwa [he] at hfit
  · exact Clients.idsFit_of_step hact hfit

theorem hist_of_step (h : s.step a = some s') : s.clients.sys.hist <+: s'.clients.sys.hist := by
  rcases step_clients h with he | ⟨act, hact⟩
  · rw [he]
  · rcases Clients.step_sys hact with he | ⟨act', hact'⟩
    · rw [he]
    · exact Sys.step_hist hact'

/-! ## The threads after one of them has moved -/

theorem thread_of_erase {thread thread' : Nat} {pc : ThreadPc} {threads : Std.ExtTreeMap Nat ThreadPc compare}
    (h : (threads.erase thread)[thread']? = some pc) : threads[thread']? = some pc := by
  rw [Std.ExtTreeMap.getElem?_erase] at h
  split at h
  · cases h
  · exact h

theorem thread_of_insert {thread thread' : Nat} {pc pc' : ThreadPc} {threads : Std.ExtTreeMap Nat ThreadPc compare}
    (h : (threads.insert thread pc)[thread']? = some pc') : threads[thread']? = some pc' ∨ pc = pc' := by
  by_cases ht : thread = thread'
  · subst ht
    exact .inr (Option.some.inj (Std.ExtTreeMap.getElem?_insert_self.symm.trans h))
  · exact .inl ((Std.ExtTreeMap.getElem?_insert_of_ne ht).symm.trans h)

end Timed

/-! ## Times of a history -/

/-- The time of an event, if it has one. -/
def Event.stamp : Event → Option UInt64
  | .enqueued _ _ timeNs => some timeNs
  | .submit _ (.launched _ timeNs) => some timeNs
  | .submit _ (.harvested _ _ timeNs) => some timeNs
  | _ => none

/-- These events have no time. -/
def Unstamped (evs : List Event) : Prop := ∀ e ∈ evs, e.stamp = none

theorem Unstamped.enqueued {evs : List Event} (h : Unstamped evs) (id : RknpuQueueTaskId) (queued : RknpuQueuedSubmit)
    (timeNs : UInt64) : .enqueued id queued timeNs ∉ evs := fun hmem => nomatch h _ hmem

theorem Unstamped.launched {evs : List Event} (h : Unstamped evs) (id : RknpuQueueTaskId) (slot : Slot)
    (timeNs : UInt64) : .submit id (.launched slot timeNs) ∉ evs := fun hmem => nomatch h _ hmem

theorem Unstamped.harvested {evs : List Event} (h : Unstamped evs) (id : RknpuQueueTaskId) (slot : Slot)
    (status : UInt32) (timeNs : UInt64) : .submit id (.harvested slot status timeNs) ∉ evs := fun hmem => nomatch h _ hmem

/-- The sections that take no time. -/
def Act.Untimed {W : Type} : Act W → Prop
  | .decide | .fail _ | .wake _ | .abort _ | .take _ => True
  | _ => False

theorem Sys.step_unstamped {W : Type} {y y' : Sys W} {a : Act W} (hs : y.step a = some y') (ha : a.Untimed) :
    ∃ evs, y'.hist = y.hist ++ evs ∧ Unstamped evs := by
  obtain ⟨evs, hhist, hevents⟩ := Sys.step_events hs
  refine ⟨evs, hhist, fun e he => ?_⟩
  cases hevents e he with
  | enqueued => exact ha.elim
  | launched => exact ha.elim
  | harvest => exact ha.elim
  | wake hkind => cases hkind <;> rfl
  | _ => rfl

/-- These events have no time and reserve nothing. -/
structure Quiet (evs : List Event) : Prop where
  unstamped : Unstamped evs
  unreserved : ∀ (id : RknpuQueueTaskId) (slot : Slot), .submit id (.reserved slot) ∉ evs

theorem Quiet.nil : Quiet [] := ⟨nofun, nofun⟩

theorem Sys.step_quiet {W : Type} {y y' : Sys W} {a : Act W} (hs : y.step a = some y') (ha : a.Untimed)
    (hne : a ≠ .decide) : ∃ evs, y'.hist = y.hist ++ evs ∧ Quiet evs := by
  obtain ⟨evs, hhist, hunstamped⟩ := Sys.step_unstamped hs ha
  obtain ⟨evs', hhist', hevents⟩ := Sys.step_events hs
  cases List.append_cancel_left (hhist.symm.trans hhist')
  refine ⟨evs, hhist, hunstamped, fun id slot hmem => ?_⟩
  cases hevents _ hmem with
  | reserved => exact hne rfl
  | harvest => exact ha
  | wake hkind => cases hkind

section

variable {W : Type} {y y' : Sys W}

theorem Sys.free_of_decide (hs : y.step .decide = some y') : y.worker = .free :=
  (Option.ite_none_right_eq_some.mp hs).1

theorem Sys.dispatching_of_fail {err : RknpuError} (hs : y.step (.fail err) = some y') :
    ∃ setup, y.worker = .dispatching setup ∧ y' = y.fail setup err := by
  simp only [Sys.step] at hs
  split at hs
  · exact ⟨_, ‹_›, (Option.some.inj hs).symm⟩
  · cases hs

theorem Sys.waking_of_wake {deviceError : Bool} (hs : y.step (.wake deviceError) = some y') :
    ∃ taskIds prepareRead, y.worker = .waking taskIds prepareRead ∧ y'.worker = .free := by
  simp only [Sys.step] at hs
  split at hs
  · exact ⟨_, _, ‹_›, by rw [← Option.some.inj hs]; rfl⟩
  · cases hs

end

/-- A call under way is quiet in the history and leaves the worker where it is. -/
theorem Clients.step_call {c c' : Clients} {thread : Nat} {act : CallAct} (h : c.step (.call thread act) = some c') :
    (∃ evs, c'.sys.hist = c.sys.hist ++ evs ∧ Quiet evs) ∧ c'.sys.worker = c.sys.worker := by
  have hsame : ∃ evs, c.sys.hist = c.sys.hist ++ evs ∧ Quiet evs := ⟨[], (List.append_nil _).symm, .nil⟩
  cases step_cases h with
  | abort _ hs => cases hs; exact ⟨Sys.step_quiet (a := .abort _) rfl trivial nofun, rfl⟩
  | take _ _ hs => cases hs; exact ⟨Sys.step_quiet (a := .take _) rfl trivial nofun, rfl⟩
  | missing _ _ hs => cases hs; exact ⟨Sys.step_quiet (a := .take _) rfl trivial nofun, rfl⟩
  | _ => exact ⟨hsame, rfl⟩

theorem Clients.step_worker {c c' : Clients} {a : Act Nat} (h : c.step (.worker a) = some c') :
    c.sys.step a = some c'.sys := by
  cases step_cases h with
  | worker _ _ hs => exact hs

theorem Clients.step_enter {c c' : Clients} {thread : Nat} {header : Except RknpuServiceError RknpuSubmit}
    {tasks : Except RknpuServiceError (List RknpuTask)} {t0Ns timeNs : UInt64} {submit : RknpuSubmit}
    {tasks' : List RknpuTask} (h : c.step (.enter thread header tasks t0Ns timeNs) = some c')
    (haccept : acceptSubmit header tasks = .ok (submit, tasks')) :
    c'.sys = c.sys.enqueue (queuedSubmit submit tasks' t0Ns) c.nextWaiter timeNs := by
  obtain ⟨_, h⟩ := Option.ite_none_right_eq_some.mp h
  simp only [Clients.enter, haccept] at h
  obtain ⟨_, h⟩ := Option.ite_none_left_eq_some.mp h
  obtain ⟨sys, hs, rfl⟩ := Option.map_eq_some_iff.mp h
  cases hs
  rfl

theorem Clients.step_refused {c c' : Clients} {thread : Nat} {header : Except RknpuServiceError RknpuSubmit}
    {tasks : Except RknpuServiceError (List RknpuTask)} {t0Ns timeNs : UInt64} {err : RknpuServiceError}
    (h : c.step (.enter thread header tasks t0Ns timeNs) = some c') (haccept : acceptSubmit header tasks = .error err) :
    c'.sys = c.sys := by
  obtain ⟨_, h⟩ := Option.ite_none_right_eq_some.mp h
  simp only [Clients.enter, haccept] at h
  cases h
  rfl

theorem Clients.step_signal {c c' : Clients} (h : c.step .signal = some c') : c'.sys = c.sys := by
  cases step_cases h with
  | signal => rfl

/-! ## The clock -/

/-- A dispatch that comes before a completion is not younger. -/
def LaunchLe (e e' : Event) : Prop :=
  ∀ id slot timeNs id' slot' status timeNs', e = .submit id (.launched slot timeNs) →
    e' = .submit id' (.harvested slot' status timeNs') → timeNs ≤ timeNs'

structure Timed.Clock (start : UInt64) (s : Timed) : Prop where
  started : start ≤ s.now
  past : ∀ e ∈ s.clients.sys.hist, ∀ timeNs, e.stamp = some timeNs → start ≤ timeNs ∧ timeNs ≤ s.now
  entered : ∀ (thread : Nat) (t0Ns : UInt64), s.threads[thread]? = some (.entered t0Ns) → t0Ns ≤ s.now
  queued : ∀ id queued timeNs, .enqueued id queued timeNs ∈ s.clients.sys.hist →
    queued.latency.t0Ns ≤ timeNs ∧ queued.latency.t2Ns = 0
  asked : ∀ timeNs, s.dispatch = .asked timeNs → start ≤ timeNs ∧ timeNs ≤ s.now ∧
    ∃ setup, s.clients.sys.worker = .dispatching setup ∧
      ∀ queued timeNs', .enqueued setup.binding.taskId queued timeNs' ∈ s.clients.sys.hist → timeNs' ≤ timeNs
  harvesting : ∀ p ∈ s.harvesting, start ≤ p.2 ∧ p.2 ≤ s.now ∧ s.clients.sys.worker = .free ∧
    ∀ id slot timeNs, .submit id (.launched slot timeNs) ∈ s.clients.sys.hist → timeNs ≤ p.2
  launched : ∀ id queued timeNs slot timeNs', .enqueued id queued timeNs ∈ s.clients.sys.hist →
    .submit id (.launched slot timeNs') ∈ s.clients.sys.hist → timeNs ≤ timeNs'
  harvested : s.clients.sys.hist.Pairwise LaunchLe

namespace Timed.Clock

variable {start : UInt64} {s s' : Timed}

theorem init (start : UInt64) : (Timed.init start).Clock start where
  started := UInt64.le_refl _
  past := nofun
  entered := fun _ _ h => by simp [Timed.init] at h
  queued := nofun
  asked := nofun
  harvesting := nofun
  launched := nofun
  harvested := .nil

/-- A step that records no time. -/
theorem frame (h : s.Clock start)
    (hhist : ∃ evs, s'.clients.sys.hist = s.clients.sys.hist ++ evs ∧ Unstamped evs) (hnow : s.now ≤ s'.now)
    (hthreads : ∀ (thread : Nat) (t0Ns : UInt64), s'.threads[thread]? = some (.entered t0Ns) →
      s.threads[thread]? = some (.entered t0Ns) ∨ t0Ns = s'.now)
    (hasked : ∀ timeNs, s'.dispatch = .asked timeNs →
      s.dispatch = .asked timeNs ∧ s'.clients.sys.worker = s.clients.sys.worker)
    (hharvesting : ∀ p ∈ s'.harvesting, p ∈ s.harvesting ∧ s'.clients.sys.worker = s.clients.sys.worker) :
    s'.Clock start := by
  obtain ⟨evs, hhist, hevs⟩ := hhist
  have hold : ∀ {e : Event} {timeNs : UInt64}, e ∈ s'.clients.sys.hist → e.stamp = some timeNs →
      e ∈ s.clients.sys.hist := by
    intro e timeNs hmem hstamp
    rw [hhist] at hmem
    refine (List.mem_append.mp hmem).resolve_right fun hnew => ?_
    cases (hevs e hnew).symm.trans hstamp
  refine ⟨UInt64.le_trans h.started hnow, ?_, ?_, ?_, ?_, ?_, ?_, ?_⟩
  · intro e hmem timeNs hstamp
    obtain ⟨hlow, hle⟩ := h.past e (hold hmem hstamp) timeNs hstamp
    exact ⟨hlow, UInt64.le_trans hle hnow⟩
  · intro thread t0Ns hthread
    rcases hthreads thread t0Ns hthread with hthread | rfl
    · exact UInt64.le_trans (h.entered thread t0Ns hthread) hnow
    · exact UInt64.le_refl _
  · exact fun id queued timeNs hmem => h.queued id queued timeNs (hold hmem rfl)
  · intro timeNs hdispatch
    obtain ⟨hdispatch, hworker⟩ := hasked timeNs hdispatch
    obtain ⟨hlow, hle, setup, hw, henqueued⟩ := h.asked timeNs hdispatch
    exact ⟨hlow, UInt64.le_trans hle hnow, setup, hworker.trans hw,
      fun queued timeNs' hmem => henqueued queued timeNs' (hold hmem rfl)⟩
  · intro p hp
    obtain ⟨hp, hworker⟩ := hharvesting p hp
    obtain ⟨hlow, hle, hw, hlaunched⟩ := h.harvesting p hp
    exact ⟨hlow, UInt64.le_trans hle hnow, hworker.trans hw,
      fun id slot timeNs hmem => hlaunched id slot timeNs (hold hmem rfl)⟩
  · exact fun id queued timeNs slot timeNs' he hl => h.launched id queued timeNs slot timeNs' (hold he rfl) (hold hl rfl)
  · rw [hhist, List.pairwise_append]
    refine ⟨h.harvested, ?_, ?_⟩
    · refine List.pairwise_of_forall_mem_list fun e _ e' he' id slot timeNs id' slot' status timeNs' _ heq => ?_
      subst heq
      exact (hevs.harvested _ _ _ _ he').elim
    · rintro e _ e' he' id slot timeNs id' slot' status timeNs' - rfl
      exact (hevs.harvested _ _ _ _ he').elim

/-! ## The steps that record a time -/

theorem enter (h : s.Clock start) (hinv : s.clients.sys.Inv) {thread : Nat} {pc : ThreadPc} {t0Ns timeNs : UInt64}
    {submit : RknpuSubmit} {tasks : List RknpuTask} {waiter : Nat} {c : Clients} (hpc : ∀ t, pc ≠ .entered t)
    (hthread : s.threads[thread]? = some (.entered t0Ns)) (hlock : s.harvesting = []) (hnow : s.now ≤ timeNs)
    (hsys : c.sys = s.clients.sys.enqueue (queuedSubmit submit tasks t0Ns) waiter timeNs) (hfit : c.sys.IdsFit) :
    ({ s with clients := c, now := timeNs, threads := s.threads.insert thread pc } : Timed).Clock start := by
  rw [hsys] at hfit
  have hfresh := hinv.fresh hfit.of_enqueue
  have hhist : c.sys.hist = s.clients.sys.hist ++
      [.enqueued s.clients.sys.nextQueueTaskId (queuedSubmit submit tasks t0Ns) timeNs] := by
    rw [hsys]
    rfl
  have hmem : ∀ {e : Event}, e ∈ c.sys.hist → e ∈ s.clients.sys.hist ∨
      e = .enqueued s.clients.sys.nextQueueTaskId (queuedSubmit submit tasks t0Ns) timeNs := by
    intro e he
    rwa [hhist, List.mem_append, List.mem_singleton] at he
  refine ⟨UInt64.le_trans h.started hnow, ?_, ?_, ?_, ?_, ?_, ?_, ?_⟩
  · intro e he t hstamp
    rcases hmem he with he | rfl
    · obtain ⟨hlow, hle⟩ := h.past e he t hstamp
      exact ⟨hlow, UInt64.le_trans hle hnow⟩
    · cases hstamp
      exact ⟨UInt64.le_trans h.started hnow, UInt64.le_refl _⟩
  · intro thread' t hthread'
    rcases thread_of_insert hthread' with hthread' | hpc'
    · exact UInt64.le_trans (h.entered thread' t hthread') hnow
    · exact (hpc t hpc').elim
  · intro id queued t he
    rcases hmem he with he | he
    · exact h.queued id queued t he
    · cases he
      exact ⟨UInt64.le_trans (h.entered thread t0Ns hthread) hnow, rfl⟩
  · intro t hasked
    obtain ⟨hlow, hle, setup, hw, henqueued⟩ := h.asked t hasked
    refine ⟨hlow, UInt64.le_trans hle hnow, setup, (congrArg Sys.worker hsys).trans hw, fun queued t' he => ?_⟩
    rcases hmem he with he | he
    · exact henqueued queued t' he
    · -- The submit that is being dispatched is live, so the new id is not its id.
      injection he with hid
      refine (hfresh (hid ▸ hinv.enqueued_of_known (.inl (hinv.dispatching setup hw).2))).elim
  · intro p hp
    rw [show s.harvesting = [] from hlock] at hp
    cases hp
  · intro id queued t slot t' he hl
    have hl : .submit id (.launched slot t') ∈ s.clients.sys.hist := (hmem hl).resolve_right nofun
    rcases hmem he with he | he
    · exact h.launched id queued t slot t' he hl
    · cases he
      have hnone := (hinv.unknown _ hfresh).1
      rw [← mem_eventsOf, hnone] at hl
      cases hl
  · change c.sys.hist.Pairwise LaunchLe
    rw [hhist, List.pairwise_append]
    refine ⟨h.harvested, List.pairwise_singleton .., ?_⟩
    rintro e _ e' he' id slot t id' slot' status t' - rfl
    cases List.mem_singleton.mp he'

theorem launch (h : s.Clock start) {setup : DispatchSetup} {timeNs : UInt64} {c : Clients}
    {records : List RknpuScheduleTraceRecord} (hworker : s.clients.sys.worker = .dispatching setup)
    (hasked : s.dispatch = .asked timeNs) (hs : s.clients.sys.step (.launch timeNs) = some c.sys) :
    ({ s with clients := c, dispatch := .idle, records } : Timed).Clock start := by
  obtain ⟨hlow, hle, setup', hw', henqueued⟩ := h.asked timeNs hasked
  cases hworker.symm.trans hw'
  have hhist : c.sys.hist = s.clients.sys.hist ++
      [.submit setup.binding.taskId (.launched (setup.binding.slot setup.coreSlot) timeNs)] := by
    simp only [Sys.step, hworker, Option.some.injEq] at hs
    rw [← hs]
    rfl
  have hmem : ∀ {e : Event}, e ∈ c.sys.hist → e ∈ s.clients.sys.hist ∨
      e = .submit setup.binding.taskId (.launched (setup.binding.slot setup.coreSlot) timeNs) := by
    intro e he
    rwa [hhist, List.mem_append, List.mem_singleton] at he
  refine ⟨h.started, ?_, h.entered, ?_, nofun, ?_, ?_, ?_⟩
  · intro e he t hstamp
    rcases hmem he with he | rfl
    · exact h.past e he t hstamp
    · cases hstamp
      exact ⟨hlow, hle⟩
  · exact fun id queued t he => h.queued id queued t ((hmem he).resolve_right nofun)
  · intro p hp
    obtain ⟨_, _, hfree, _⟩ := h.harvesting p hp
    cases hworker.symm.trans hfree
  · intro id queued t slot t' he hl
    have he := (hmem he).resolve_right nofun
    rcases hmem hl with hl | hl
    · exact h.launched id queued t slot t' he hl
    · cases hl
      exact henqueued queued t he
  · change c.sys.hist.Pairwise LaunchLe
    rw [hhist, List.pairwise_append]
    refine ⟨h.harvested, List.pairwise_singleton .., ?_⟩
    rintro e _ e' he' id slot t id' slot' status t' - rfl
    cases List.mem_singleton.mp he'

theorem harvest (h : s.Clock start) {c : Clients} {records : List RknpuScheduleTraceRecord}
    (hs : s.clients.sys.step (.harvest s.harvesting) = some c.sys) :
    ({ s with clients := c, harvesting := [], records } : Timed).Clock start := by
  obtain ⟨hfree, hs⟩ := Option.ite_none_right_eq_some.mp hs
  have hhist : c.sys.hist = s.clients.sys.hist ++ Sys.harvestEvents s.harvesting s.clients.sys.state := by
    rw [← Option.some.inj hs]
    rfl
  -- A new event with a time is a completion of the harvest.
  have hnew : ∀ {e : Event} {t : UInt64}, e ∈ Sys.harvestEvents s.harvesting s.clients.sys.state → e.stamp = some t →
      ∃ id slot status, e = .submit id (.harvested slot status t) ∧ ∃ completion, (completion, t) ∈ s.harvesting := by
    intro e t he hstamp
    cases HarvestEvent.of_mem he with
    | harvested =>
        cases hstamp
        exact ⟨_, _, _, rfl, (bound_of_mem_harvestEvents he).2⟩
    | orphaned => cases hstamp
    | moved => cases hstamp
  have hold : ∀ {e : Event} {t : UInt64}, e ∈ c.sys.hist → e.stamp = some t →
      (∀ id slot status, e ≠ .submit id (.harvested slot status t)) → e ∈ s.clients.sys.hist := by
    intro e t he hstamp hne
    rw [hhist] at he
    refine (List.mem_append.mp he).resolve_right fun he => ?_
    obtain ⟨id, slot, status, heq, _⟩ := hnew he hstamp
    exact hne id slot status heq
  refine ⟨h.started, ?_, h.entered, ?_, ?_, nofun, ?_, ?_⟩
  · intro e he t hstamp
    change e ∈ c.sys.hist at he
    rw [hhist] at he
    rcases List.mem_append.mp he with he | he
    · exact h.past e he t hstamp
    · obtain ⟨_, _, _, _, completion, hmem⟩ := hnew he hstamp
      obtain ⟨hlow, hle, _⟩ := h.harvesting _ hmem
      exact ⟨hlow, hle⟩
  · exact fun id queued t he => h.queued id queued t (hold he rfl nofun)
  · intro t hasked
    obtain ⟨_, _, setup, hw, _⟩ := h.asked t hasked
    cases hfree.symm.trans hw
  · exact fun id queued t slot t' he hl => h.launched id queued t slot t' (hold he rfl nofun) (hold hl rfl nofun)
  · change c.sys.hist.Pairwise LaunchLe
    rw [hhist, List.pairwise_append]
    refine ⟨h.harvested, ?_, ?_⟩
    · refine List.pairwise_of_forall_mem_list fun e he e' _ id slot t id' slot' status t' heq _ => ?_
      obtain ⟨_, _, _, heq', _⟩ := hnew he (t := t) (by rw [heq]; rfl)
      cases heq.symm.trans heq'
    · intro e he e' he' id slot t id' slot' status t' heq heq'
      subst heq heq'
      obtain ⟨_, completion, hmem⟩ := bound_of_mem_harvestEvents he'
      exact (h.harvesting _ hmem).2.2.2 id slot t he

/-! ## Every run -/

/-- A section of the worker that takes no time; the worker was not waiting for the driver or inside a harvest. -/
theorem worker (h : s.Clock start) {a : Act Nat} {c : Clients} (hs : s.clients.sys.step a = some c.sys) (ha : a.Untimed)
    (hw : ∀ setup, s.clients.sys.worker ≠ .dispatching setup) (hlock : s.harvesting = []) :
    ({ s with clients := c } : Timed).Clock start := by
  refine h.frame (Sys.step_unstamped hs ha) (UInt64.le_refl _) (fun _ _ ht => .inl ht) (fun t hasked => ?_) fun p hp => ?_
  · obtain ⟨_, _, setup, hdispatching, _⟩ := h.asked t hasked
    exact (hw setup hdispatching).elim
  · rw [show s.harvesting = [] from hlock] at hp
    cases hp

theorem step (h : s.Clock start) (hinv : s.clients.sys.Inv) {a : TimedAct} (hs : s.step a = some s')
    (hfit : s'.clients.sys.IdsFit) : s'.Clock start := by
  have hsame : ∃ evs, s.clients.sys.hist = s.clients.sys.hist ++ evs ∧ Unstamped evs :=
    ⟨[], (List.append_nil _).symm, nofun⟩
  cases Timed.step_cases hs with
  | ioctl _ hnow =>
      refine h.frame hsame hnow (fun thread t ht => ?_) (fun _ hd => ⟨hd, rfl⟩) fun _ hp => ⟨hp, rfl⟩
      exact (thread_of_insert ht).imp_right fun he => (ThreadPc.entered.inj he).symm
  | refused _ haccept hc =>
      have hsys := Clients.step_refused hc haccept
      refine h.frame ?_ (UInt64.le_refl _) (fun _ _ ht => .inl (thread_of_erase ht)) (fun _ hd => ⟨hd, ?_⟩) fun _ hp => ⟨hp, ?_⟩
      · rw [hsys]
        exact hsame
      · rw [hsys]
      · rw [hsys]
  | enter hthread haccept hlock hnow hc =>
      exact h.enter hinv nofun hthread hlock hnow (Clients.step_enter hc haccept) hfit
  | recordEnqueue _ =>
      exact h.frame hsame (UInt64.le_refl _) (fun _ _ ht => .inl (thread_of_erase ht)) (fun _ hd => ⟨hd, rfl⟩)
        fun _ hp => ⟨hp, rfl⟩
  | call _ hc =>
      obtain ⟨⟨evs, hhist, hquiet⟩, hworker⟩ := Clients.step_call hc
      exact h.frame ⟨evs, hhist, hquiet.unstamped⟩ (UInt64.le_refl _) (fun _ _ ht => .inl ht) (fun _ hd => ⟨hd, hworker⟩) fun _ hp => ⟨hp, hworker⟩
  | copyBack _ _ _ hnow hc =>
      obtain ⟨⟨evs, hhist, hquiet⟩, hworker⟩ := Clients.step_call hc
      refine h.frame ⟨evs, hhist, hquiet.unstamped⟩ hnow (fun _ _ ht => ?_) (fun _ hd => ⟨hd, hworker⟩) fun _ hp => ⟨hp, hworker⟩
      exact .inl ((thread_of_insert ht).resolve_right nofun)
  | recordSubmit _ =>
      exact h.frame hsame (UInt64.le_refl _) (fun _ _ ht => .inl (thread_of_erase ht)) (fun _ hd => ⟨hd, rfl⟩)
        fun _ hp => ⟨hp, rfl⟩
  | decide hlock _ hc =>
      have hs := Clients.step_worker hc
      refine h.worker hs trivial (fun setup hw => ?_) hlock
      cases (Sys.free_of_decide hs).symm.trans hw
  | @submitStep setup timeNs hw _ hnow =>
      have hasked : ∀ queued t, .enqueued setup.binding.taskId queued t ∈ s.clients.sys.hist → t ≤ timeNs :=
        fun queued t he => UInt64.le_trans (h.past _ he t rfl).2 hnow
      have hbase : ({ s with now := timeNs, dispatch := .idle } : Timed).Clock start :=
        h.frame hsame hnow (fun _ _ ht => .inl ht) nofun fun _ hp => ⟨hp, rfl⟩
      refine { hbase with asked := fun t he => ?_ }
      cases he
      exact ⟨UInt64.le_trans h.started hnow, UInt64.le_refl _, setup, hw, hasked⟩
  | launch hw hasked hc => exact h.launch hw hasked (Clients.step_worker hc)
  | refuse _ _ hnow => exact h.frame hsame hnow (fun _ _ ht => .inl ht) nofun fun _ hp => ⟨hp, rfl⟩
  | fail _ _ hc =>
      have hs := Clients.step_worker hc
      refine h.frame (Sys.step_unstamped hs trivial) (UInt64.le_refl _) (fun _ _ ht => .inl ht) nofun fun p hp => ?_
      obtain ⟨_, _, hfree, _⟩ := h.harvesting p hp
      obtain ⟨setup, hw, _⟩ := Sys.dispatching_of_fail hs
      cases hfree.symm.trans hw
  | @completion completion timeNs hfree _ hnow =>
      have hbase : ({ s with now := timeNs } : Timed).Clock start :=
        h.frame hsame hnow (fun _ _ ht => .inl ht) (fun _ hd => ⟨hd, rfl⟩) fun _ hp => ⟨hp, rfl⟩
      refine { hbase with harvesting := fun p hp => ?_ }
      rcases List.mem_append.mp hp with hp | hp
      · exact hbase.harvesting p hp
      · cases List.mem_singleton.mp hp
        exact ⟨UInt64.le_trans h.started hnow, UInt64.le_refl _, hfree,
          fun id slot t hl => UInt64.le_trans (h.past _ hl t rfl).2 hnow⟩
  | harvest _ hc => exact h.harvest (Clients.step_worker hc)
  | wake hlock hc =>
      have hs := Clients.step_worker hc
      obtain ⟨_, _, hwaking, _⟩ := Sys.waking_of_wake hs
      refine h.worker hs trivial (fun setup hw => ?_) hlock
      cases hwaking.symm.trans hw
  | record _ =>
      exact h.frame hsame (UInt64.le_refl _) (fun _ _ ht => .inl ht) (fun _ hd => ⟨hd, rfl⟩) fun _ hp => ⟨hp, rfl⟩
  | signal hc =>
      have hsys := Clients.step_signal hc
      refine h.frame ?_ (UInt64.le_refl _) (fun _ _ ht => .inl ht) (fun _ hd => ⟨hd, ?_⟩) fun _ hp => ⟨hp, ?_⟩
      · rw [hsys]
        exact hsame
      · rw [hsys]
      · rw [hsys]
  | configure _ =>
      exact h.frame hsame (UInt64.le_refl _) (fun _ _ ht => .inl ht) (fun _ hd => ⟨hd, rfl⟩) fun _ hp => ⟨hp, rfl⟩
  | resetSubmits =>
      exact h.frame hsame (UInt64.le_refl _) (fun _ _ ht => .inl ht) (fun _ hd => ⟨hd, rfl⟩) fun _ hp => ⟨hp, rfl⟩

end Timed.Clock

/-- The scheduler of a timed run. -/
theorem Timed.sys_of_run {start : UInt64} {acts : List TimedAct} {s : Timed} (hrun : (timed start).run acts = some s) :
    ∃ acts', (scheduler Nat).run acts' = some s.clients.sys := by
  obtain ⟨acts', hrun'⟩ := run_clients hrun
  exact Clients.reaches_sys hrun'

theorem Timed.clock_of_run {start : UInt64} {acts : List TimedAct} {s : Timed}
    (hrun : (timed start).run acts = some s) (hfit : s.clients.sys.IdsFit) : s.Clock start := by
  refine Machine.run_induction (M := timed start) (P := fun _ s => s.clients.sys.IdsFit → s.Clock start) ?_ ?_ hrun hfit
  · exact fun _ => .init start
  · intro _ s a s' hrun ih hs hfit'
    have hfit := idsFit_of_step hs hfit'
    obtain ⟨acts', hsys⟩ := sys_of_run hrun
    exact (ih hfit).step (Sys.inv_of_run hsys hfit) hs hfit'

end Rknpu.Service
