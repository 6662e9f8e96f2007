import Rknpu.Queue.Lemmas.Latency
import Rknpu.Service.Lemmas.Order

/-!
# What a history shows of one submit

A record has the times of its ioctl and its enqueue, and a completion is harvested only after the driver has accepted
the dispatch.
-/

namespace Rknpu.Service

open Queue

variable {W : Type} {y y' : Sys W} {a : Act W}

/-! ## The times of the enqueue -/

/-- Every enqueued submit has lived a life that starts with the times of its enqueue. -/
def Sys.Stamped (y : Sys W) : Prop :=
  ∀ (id : RknpuQueueTaskId) (queued : RknpuQueuedSubmit) (timeNs : UInt64), .enqueued id queued timeNs ∈ y.hist →
    ∃ ℓ, Life.Reach id queued (eventsOf id y.hist) ℓ ∧ Agrees y.state id ℓ ∧
      ℓ.task.latency.t0Ns = queued.latency.t0Ns ∧ ℓ.task.latency.t1Ns = timeNs

/-- A new submit is as `enqueue_submit` leaves it. -/
theorem Sys.Inv.agrees_enqueue (h : y.Inv) (hfit : (enqueuedIds y.hist).length + 1 ≤ 2 ^ 64)
    (queued : RknpuQueuedSubmit) (waiter : W) (timeNs : UInt64) :
    eventsOf y.nextQueueTaskId (y.enqueue queued waiter timeNs).hist = [] ∧
      Agrees (y.enqueue queued waiter timeNs).state y.nextQueueTaskId (Life.start y.nextQueueTaskId queued timeNs) := by
  obtain ⟨hev, hgone⟩ := h.unknown _ (h.fresh hfit)
  have habsent := hgone (RknpuQueueTask.new y.nextQueueTaskId queued)
  refine ⟨(eventsOf_append ..).trans (by rw [hev]; rfl), ?_, habsent.complete, habsent.inflight⟩
  exact Std.ExtTreeMap.getElem?_modify_self.trans (by rw [Std.ExtTreeMap.getElem?_insert_self]; rfl)

theorem Sys.Stamped.step (h : y.Stamped) (hinv : y.Inv) (hfit : y'.IdsFit) (hs : y.step a = some y') : y'.Stamped := by
  intro id queued timeNs he
  obtain ⟨evs, hhist, hevents⟩ := Sys.step_events hs
  rw [hhist] at he
  rcases List.mem_append.mp he with he | he
  · obtain ⟨ℓ, hreach, hagree, ht0, ht1⟩ := h id queued timeNs he
    obtain ⟨evs', ℓ', hevents', hsteps, hagree', _⟩ :=
      hinv.lives_step hfit hs (mem_enqueuedIds.mpr ⟨queued, timeNs, he⟩) hagree
    rw [hevents']
    exact ⟨ℓ', hreach.steps hsteps, hagree', hsteps.t0_t1.1.trans ht0, hsteps.t0_t1.2.trans ht1⟩
  · have hnew := hevents _ he
    cases hnew with
    | enqueued =>
        cases hs
        obtain ⟨hev, hagree⟩ := hinv.agrees_enqueue hfit.of_enqueue _ _ timeNs
        refine ⟨Life.start y.nextQueueTaskId _ timeNs, ?_, hagree, rfl, rfl⟩
        rw [hev]
        exact .start timeNs
    | harvest hkind => cases hkind
    | wake hkind => cases hkind

theorem Sys.stamped_of_run {acts : List (Act W)} (hrun : (scheduler W).run acts = some y) (hfit : y.IdsFit) :
    y.Stamped := by
  refine Machine.run_induction (M := scheduler W) (P := fun _ y => y.IdsFit → y.Stamped) ?_ ?_ hrun hfit
  · exact fun _ => nofun
  · intro _ y a y' hrun ih hs hfit'
    have hfit := hfit'.of_step hs
    exact (ih hfit).step (Sys.inv_of_run hrun hfit) hfit' hs

/-! ## Launched before harvested -/

/-- Every harvested task was launched before. -/
def LaunchedFirst (hist : List Event) : Prop :=
  ∀ before id slot status timeNs after, hist = before ++ .submit id (.harvested slot status timeNs) :: after →
    ∃ timeNs', .submit id (.launched slot timeNs') ∈ before

theorem LaunchedFirst.append {hist evs : List Event} (h : LaunchedFirst hist)
    (hevs : ∀ id slot status timeNs, .submit id (.harvested slot status timeNs) ∈ evs →
      ∃ timeNs', .submit id (.launched slot timeNs') ∈ hist) : LaunchedFirst (hist ++ evs) := by
  intro before id slot status timeNs after he
  rcases List.append_eq_append_iff.mp he with ⟨evs', rfl, hevs'⟩ | ⟨rest, rfl, hrest⟩
  · obtain ⟨timeNs', hmem⟩ := hevs id slot status timeNs (by simp [hevs'])
    exact ⟨timeNs', List.mem_append_left _ hmem⟩
  · cases rest with
    | nil =>
        rw [List.nil_append] at hrest
        obtain ⟨timeNs', hmem⟩ := hevs id slot status timeNs (by rw [← hrest]; exact List.mem_cons_self)
        exact ⟨timeNs', by simpa using hmem⟩
    | cons e rest =>
        obtain ⟨rfl, _⟩ := List.cons.inj hrest
        exact h before id slot status timeNs rest rfl

/-- A bound core was launched, unless the driver has still to answer. -/
structure Sys.Launches (y : Sys W) : Prop where
  bound : ∀ (core : Nat) (binding : CoreRunBinding), y.state.coreBinding[core]? = some binding →
    (∃ setup, y.worker = .dispatching setup ∧ setup.coreSlot = core) ∨
      ∃ timeNs, .submit binding.taskId (.launched (binding.slot core) timeNs) ∈ y.hist
  first : LaunchedFirst y.hist

/-- A completion is recorded for a core that was bound when the section began. -/
theorem bound_of_mem_harvestEvents {completions : List (CoreCompletion × UInt64)} {s : NpuSchedulerState W}
    {id : RknpuQueueTaskId} {slot : Slot} {status : UInt32} {timeNs : UInt64}
    (h : .submit id (.harvested slot status timeNs) ∈ Sys.harvestEvents completions s) :
    (∃ binding, s.coreBinding[slot.core]? = some binding ∧ binding.taskId = id ∧ binding.slot slot.core = slot) ∧
      ∃ completion, (completion, timeNs) ∈ completions := by
  induction completions generalizing s with
  | nil => cases h
  | cons c completions ih =>
      obtain ⟨completion, time⟩ := c
      rw [Sys.harvestEvents, List.mem_append, List.mem_append] at h
      rcases h with (h | h) | h
      · unfold Sys.harvestEvent at h
        split at h
        · cases h
        · rename_i binding hbound
          dsimp only at h
          split at h
          · cases List.mem_singleton.mp h
            exact ⟨⟨binding, hbound, rfl, rfl⟩, completion, List.mem_cons_self⟩
          · cases List.mem_singleton.mp h
      · obtain ⟨_, _, he⟩ := mem_movedEvent.mp h
        cases he
      · obtain ⟨⟨binding, hbound, hrest⟩, completion', hmem⟩ := ih h
        exact ⟨⟨binding, NpuSchedulerState.coreBinding_harvestCompletion hbound, hrest⟩, completion',
          List.mem_cons_of_mem _ hmem⟩

theorem NpuSchedulerState.bound_of_harvestCompletions {completions : List (CoreCompletion × UInt64)}
    {s : NpuSchedulerState W} {core : Nat} {binding : CoreRunBinding}
    (h : (s.harvestCompletions completions).2.coreBinding[core]? = some binding) :
    s.coreBinding[core]? = some binding := by
  induction completions generalizing s with
  | nil => exact h
  | cons c completions ih =>
      rw [harvestCompletions_cons] at h
      exact coreBinding_harvestCompletion (ih h)

theorem NpuSchedulerState.coreBinding_wakeTask (s : NpuSchedulerState W) (prepareError : Bool)
    (taskId : RknpuQueueTaskId) : (s.wakeTask prepareError taskId).2.coreBinding = s.coreBinding := by
  unfold wakeTask
  cases prepareError with
  | true => dsimp only; split <;> rfl
  | false => dsimp only; split <;> rfl

theorem NpuSchedulerState.coreBinding_wakeTerminalTasks (s : NpuSchedulerState W) (prepareError : Bool)
    (taskIds : List RknpuQueueTaskId) : (s.wakeTerminalTasks prepareError taskIds).2.coreBinding = s.coreBinding := by
  induction taskIds generalizing s with
  | nil => rfl
  | cons id taskIds ih => exact (ih _).trans (coreBinding_wakeTask s prepareError id)

/-- A decision binds the core it has chosen and no other. -/
theorem NpuSchedulerState.Decided.bound_of_ne {s : NpuSchedulerState W}
    {r : Option DispatchSetup × NpuSchedulerState W} (h : s.Decided r) {core : Nat} {binding : CoreRunBinding}
    (hbound : r.2.coreBinding[core]? = some binding) :
    s.coreBinding[core]? = some binding ∨ ∃ setup, r.1 = some setup ∧ setup.coreSlot = core := by
  have hinsert : ∀ {coreSlot : Nat} {b : CoreRunBinding}, (s.coreBinding.insert coreSlot b)[core]? = some binding →
      s.coreBinding[core]? = some binding ∨ coreSlot = core := by
    intro coreSlot b hb
    by_cases hc : coreSlot = core
    · exact .inr hc
    · exact .inl ((Std.ExtTreeMap.getElem?_insert_of_ne hc).symm.trans hb)
  cases h with
  | nothing => exact .inl hbound
  | continued => exact (hinsert hbound).imp_right fun hc => ⟨_, rfl, hc⟩
  | promoted => exact (hinsert hbound).imp_right fun hc => ⟨_, rfl, hc⟩

namespace Sys.Launches

theorem init : (Sys.init : Sys W).Launches where
  bound := fun _ _ h => by simp [Sys.init, NpuSchedulerState.new] at h
  first := fun before _ _ _ _ _ he => by cases before <;> cases he

/-- A section that harvests nothing, binds no core and does not touch the dispatch in progress. -/
theorem of_frame (h : y.Launches) {evs : List Event} (hhist : y'.hist = y.hist ++ evs)
    (hevs : ∀ id slot status timeNs, .submit id (.harvested slot status timeNs) ∉ evs)
    (hbound : ∀ (core : Nat) (binding : CoreRunBinding), y'.state.coreBinding[core]? = some binding →
      y.state.coreBinding[core]? = some binding)
    (hworker : ∀ setup, y.worker = .dispatching setup → y'.worker = .dispatching setup) : y'.Launches := by
  refine ⟨fun core binding hb => ?_, ?_⟩
  · rcases h.bound core binding (hbound core binding hb) with ⟨setup, hw, hcore⟩ | ⟨timeNs, hmem⟩
    · exact .inl ⟨setup, hworker setup hw, hcore⟩
    · exact .inr ⟨timeNs, by rw [hhist]; exact List.mem_append_left _ hmem⟩
  · rw [hhist]
    exact h.first.append fun id slot status timeNs hmem => (hevs id slot status timeNs hmem).elim

theorem step (h : y.Launches) (hinv : y.Inv) (hs : y.step a = some y') : y'.Launches := by
  have hcases := Sys.step_cases hs
  cases hcases with
  | enqueue => exact h.of_frame rfl (by simp) (fun _ _ hb => hb) fun _ hw => hw
  | decide hw =>
      have hdec := NpuSchedulerState.dispatchDecision_decided hinv.queues.readyWF
      unfold Sys.decide
      split
      · rename_i he
        rw [he] at hdec
        refine h.of_frame (List.append_nil _).symm nofun (fun core binding hb => ?_) fun _ hw => hw
        exact (hdec.bound_of_ne hb).resolve_right fun ⟨_, hnone, _⟩ => nomatch hnone
      · rename_i setup state he
        rw [he] at hdec
        refine ⟨fun core binding hb => ?_, h.first.append (by simp)⟩
        rcases hdec.bound_of_ne hb with hb | ⟨setup', hsome, hcore⟩
        · rcases h.bound core binding hb with ⟨_, hw', _⟩ | ⟨timeNs, hmem⟩
          · cases hw.symm.trans hw'
          · exact .inr ⟨timeNs, List.mem_append_left _ hmem⟩
        · cases hsome
          exact .inl ⟨setup, rfl, hcore⟩
  | @launch setup timeNs hw =>
      refine ⟨fun core binding hb => ?_, h.first.append (by simp)⟩
      rcases h.bound core binding hb with ⟨setup', hw', hcore⟩ | ⟨timeNs', hmem⟩
      · -- The core of the dispatch in progress still has its binding.
        cases hw.symm.trans hw'
        subst hcore
        cases (hinv.dispatching setup hw).1.symm.trans hb
        exact .inr ⟨timeNs, List.mem_append_right _ List.mem_cons_self⟩
      · exact .inr ⟨timeNs', List.mem_append_left _ hmem⟩
  | @fail setup err hw =>
      refine ⟨fun core binding hb => ?_, ?_⟩
      · have hb' : (y.state.coreBinding.erase setup.coreSlot)[core]? = some binding :=
          (congrArg (·[core]?) (NpuSchedulerState.reclassifyTask_frame _ _).1).symm.trans hb
        have hne : setup.coreSlot ≠ core := by
          rintro rfl
          simp at hb'
        rw [Std.ExtTreeMap.getElem?_erase_of_ne hne] at hb'
        rcases h.bound core binding hb' with ⟨setup', hw', hcore⟩ | ⟨timeNs, hmem⟩
        · cases hw.symm.trans hw'
          exact (hne hcore).elim
        · exact .inr ⟨timeNs, List.mem_append_left _ (List.mem_append_left _ hmem)⟩
      · refine (h.first.append ?_).append ?_
        · simp
        · intro id slot status timeNs hmem
          obtain ⟨_, _, he⟩ := mem_movedEvent.mp hmem
          cases he
  | harvest completions hw =>
      have hlaunched : ∀ (core : Nat) (binding : CoreRunBinding), y.state.coreBinding[core]? = some binding →
          ∃ timeNs, .submit binding.taskId (.launched (binding.slot core) timeNs) ∈ y.hist := by
        intro core binding hb
        refine (h.bound core binding hb).resolve_left fun ⟨_, hw', _⟩ => ?_
        cases hw.symm.trans hw'
      refine ⟨fun core binding hb => ?_, h.first.append fun id slot status timeNs hmem => ?_⟩
      · obtain ⟨timeNs, hmem⟩ := hlaunched core binding (NpuSchedulerState.bound_of_harvestCompletions hb)
        exact .inr ⟨timeNs, List.mem_append_left _ hmem⟩
      · obtain ⟨⟨binding, hb, rfl, hslot⟩, _⟩ := bound_of_mem_harvestEvents hmem
        rw [← hslot]
        exact hlaunched slot.core binding hb
  | wake deviceError hw =>
      refine h.of_frame rfl (fun id slot status timeNs hmem => nomatch WakeEvent.of_mem hmem) (fun core binding hb => ?_) ?_
      · exact (congrArg (·[core]?) (NpuSchedulerState.coreBinding_wakeTerminalTasks ..)).symm.trans hb
      · intro setup hw'
        cases hw.symm.trans hw'
  | abort taskId =>
      refine h.of_frame (List.append_assoc ..) (fun id slot status timeNs hmem => ?_) (fun core binding hb => ?_) fun _ hw => hw
      · rcases List.mem_append.mp hmem with hmem | hmem
        · cases List.mem_singleton.mp (List.mem_ite_nil_right.mp hmem).2
        · obtain ⟨_, _, he⟩ := mem_movedEvent.mp hmem
          cases he
      · exact (congrArg (·[core]?) (y.state.abortWait_coreBinding taskId)).symm.trans hb
  | take taskId =>
      refine h.of_frame rfl (fun id slot status timeNs hmem => ?_) (fun core binding hb => ?_) fun _ hw => hw
      · obtain ⟨_, _, he⟩ := Option.map_eq_some_iff.mp (Option.mem_toList.mp hmem)
        cases he
      · revert hb
        simp only [Sys.take, NpuSchedulerState.takeTerminalSubmit]
        split <;> exact id

end Sys.Launches

theorem Sys.launches_of_run {acts : List (Act W)} (hrun : (scheduler W).run acts = some y) (hfit : y.IdsFit) :
    y.Launches := by
  refine Machine.run_induction (M := scheduler W) (P := fun _ y => y.IdsFit → y.Launches) ?_ ?_ hrun hfit
  · exact fun _ => .init
  · intro _ y a y' hrun ih hs hfit'
    have hfit := hfit'.of_step hs
    exact (ih hfit).step (Sys.inv_of_run hrun hfit) hs

end Rknpu.Service
