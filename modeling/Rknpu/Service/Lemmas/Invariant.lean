import Rknpu.Service.Lemmas.Dispatches

/-!
# The invariant of the scheduler

`Sys.Inv` holds after every run in which no id is handed out twice: the queues are consistent, every
enqueued submit has lived a life that the state agrees with, every other id is unknown to the state, and
a dispatch that the driver has not answered yet is bound and live.
-/

namespace Rknpu.Service

open Queue

variable {W : Type}

/-! ## Enqueued ids -/

theorem enqueuedIds_harvestEvents (completions : List (CoreCompletion × UInt64)) (s : NpuSchedulerState W) :
    enqueuedIds (Sys.harvestEvents completions s) = [] :=
  enqueuedIds_eq_nil fun _ _ _ hmem => nomatch HarvestEvent.of_mem hmem

theorem enqueuedIds_wakeEvents (prepareError : Bool) (taskIds : List RknpuQueueTaskId) (s : NpuSchedulerState W) :
    enqueuedIds (Sys.wakeEvents prepareError taskIds s) = [] :=
  enqueuedIds_eq_nil fun _ _ _ hmem => nomatch WakeEvent.of_mem hmem

/-! ## The invariant -/

structure Sys.Inv (y : Sys W) : Prop where
  queues : y.state.Consistent
  next : y.nextQueueTaskId = UInt64.ofNat ((enqueuedIds y.hist).length + 1)
  ids : ∀ id ∈ enqueuedIds y.hist, ∃ i < (enqueuedIds y.hist).length, id = UInt64.ofNat (i + 1)
  nodup : (enqueuedIds y.hist).Nodup
  lives : ∀ id queued timeNs, .enqueued id queued timeNs ∈ y.hist →
    queued.Fits ∧ ∃ ℓ, Life.Reach id queued (eventsOf id y.hist) ℓ ∧ Agrees y.state id ℓ
  unknown : ∀ id, id ∉ enqueuedIds y.hist → eventsOf id y.hist = [] ∧ ∀ t, Agrees y.state id ⟨t, .gone, []⟩
  dispatching : ∀ setup, y.worker = .dispatching setup →
    y.state.coreBinding[setup.coreSlot]? = some setup.binding ∧ y.state.tasks[setup.binding.taskId]? ≠ none

/-- A section without an enqueue: its events move every submit along, the queues stay consistent, and a
dispatch that the driver has not answered yet stays bound and live. -/
structure Sys.Section (y y' : Sys W) : Prop where
  events : ∃ evs, y'.hist = y.hist ++ evs ∧ enqueuedIds evs = [] ∧ Tracks y.state evs y'.state
  next : y'.nextQueueTaskId = y.nextQueueTaskId
  queues : y'.state.Consistent
  dispatching : ∀ setup, y'.worker = .dispatching setup →
    y'.state.coreBinding[setup.coreSlot]? = some setup.binding ∧ y'.state.tasks[setup.binding.taskId]? ≠ none

theorem Sys.tasks_enqueue_of_ne {y : Sys W} {id : RknpuQueueTaskId} (hid : id ≠ y.nextQueueTaskId)
    (queued : RknpuQueuedSubmit) (waiter : W) (timeNs : UInt64) :
    (y.enqueue queued waiter timeNs).state.tasks[id]? = y.state.tasks[id]? :=
  (Std.ExtTreeMap.getElem?_modify_of_ne (Ne.symm hid)).trans (Std.ExtTreeMap.getElem?_insert_of_ne (Ne.symm hid))

theorem Sys.IdsFit.of_enqueue {y : Sys W} {queued : RknpuQueuedSubmit} {waiter : W} {timeNs : UInt64}
    (h : (y.enqueue queued waiter timeNs).IdsFit) : (enqueuedIds y.hist).length + 1 ≤ 2 ^ 64 := by
  have hids : enqueuedIds (y.enqueue queued waiter timeNs).hist = enqueuedIds y.hist ++ [y.nextQueueTaskId] :=
    enqueuedIds_append ..
  rwa [Sys.IdsFit, hids, List.length_append] at h

namespace Sys.Inv

variable {y y' : Sys W} {taskId : RknpuQueueTaskId}

/-- A live record is the record of the life of an enqueued submit. -/
theorem life (h : y.Inv) {t : RknpuQueueTask} (ht : y.state.tasks[taskId]? = some t) :
    ∃ queued timeNs fl, .enqueued taskId queued timeNs ∈ y.hist ∧ queued.Fits ∧
      Life.Reach taskId queued (eventsOf taskId y.hist) ⟨t, .live, fl⟩ ∧
      Agrees y.state taskId ⟨t, .live, fl⟩ := by
  have hmem : taskId ∈ enqueuedIds y.hist := by
    by_contra hno
    have := ((h.unknown taskId hno).2 t).tasks
    rw [ht] at this
    cases this
  obtain ⟨queued, timeNs, he⟩ := mem_enqueuedIds.mp hmem
  obtain ⟨hfits, ⟨t', p, fl⟩, hreach, hagree⟩ := h.lives taskId queued timeNs he
  obtain ⟨hplace, htask⟩ := hagree.live ht
  simp only at hplace htask
  subst hplace htask
  exact ⟨queued, timeNs, fl, he, hfits, hreach, hagree⟩

/-- An id is enqueued once. -/
theorem enqueued_unique (h : y.Inv) {queued queued' : RknpuQueuedSubmit} {timeNs timeNs' : UInt64}
    (he : .enqueued taskId queued timeNs ∈ y.hist) (he' : .enqueued taskId queued' timeNs' ∈ y.hist) :
    queued = queued' ∧ timeNs = timeNs' := by
  have hpair := List.pairwise_filterMap.mp h.nodup
  by_contra hne
  have hne' : Event.enqueued taskId queued timeNs ≠ .enqueued taskId queued' timeNs' := by
    intro heq
    cases heq
    exact hne ⟨rfl, rfl⟩
  refine @List.Pairwise.forall _ _ _ ?_ hpair _ he _ he' hne' taskId rfl taskId rfl rfl
  exact ⟨fun e e' hee id hid id' hid' => (hee id' hid' id hid).symm⟩

theorem init : (Sys.init : Sys W).Inv where
  queues := NpuSchedulerState.Consistent.new
  next := rfl
  ids := nofun
  nodup := List.nodup_nil
  lives := nofun
  unknown := fun id _ => ⟨rfl, fun t => ⟨by simp [Sys.init, NpuSchedulerState.new],
    by simp [Sys.init, NpuSchedulerState.new], by simp [Sys.init, NpuSchedulerState.new, inflightOf]⟩⟩
  dispatching := nofun

/-- A section without an enqueue keeps the invariant. -/
theorem of_section (h : y.Inv) (hsec : y.Section y') : y'.Inv := by
  obtain ⟨⟨evs, hhist, hnone, htracks⟩, hnext, hqueues, hdisp⟩ := hsec
  have hids : enqueuedIds y'.hist = enqueuedIds y.hist := by rw [hhist, enqueuedIds_append, hnone, List.append_nil]
  refine ⟨hqueues, by rw [hnext, hids, h.next], by rw [hids]; exact h.ids, by rw [hids]; exact h.nodup, ?_, ?_, hdisp⟩
  · intro id queued timeNs he
    have hmem : .enqueued id queued timeNs ∈ y.hist := by
      rw [hhist] at he
      rcases List.mem_append.mp he with he | he
      · exact he
      · have : id ∈ enqueuedIds evs := mem_enqueuedIds.mpr ⟨queued, timeNs, he⟩
        rw [hnone] at this
        cases this
    obtain ⟨hfits, ℓ, hreach, hagree⟩ := h.lives id queued timeNs hmem
    obtain ⟨ℓ', hsteps, hagree'⟩ := htracks id ℓ hagree
    refine ⟨hfits, ℓ', ?_, hagree'⟩
    rw [hhist, eventsOf_append]
    exact hreach.steps hsteps
  · intro id hid
    rw [hids] at hid
    obtain ⟨hev, hgone⟩ := h.unknown id hid
    rw [hhist, eventsOf_append, hev, List.nil_append]
    refine ⟨?_, ?_⟩
    · obtain ⟨_, hsteps, _⟩ := htracks id _ (hgone (RknpuQueueTask.new id (RknpuQueuedSubmit.new .default [])))
      exact hsteps.of_gone.1
    · intro t
      obtain ⟨ℓ', hsteps, hagree'⟩ := htracks id _ (hgone t)
      rw [hsteps.of_gone.2] at hagree'
      exact hagree'

/-- A submit that is not live is not being dispatched. -/
theorem pendingSlots_eq_nil (h : y.Inv) (hgone : y.state.tasks[taskId]? = none) : pendingSlots taskId y.worker = [] := by
  unfold pendingSlots
  split
  · rename_i setup hw
    split
    · rename_i hid
      have hlive := (h.dispatching setup hw).2
      rw [hid] at hlive
      exact (hlive hgone).elim
    · rfl
  · rfl

/-! ## Enqueue -/

theorem fresh (h : y.Inv) (hfit : (enqueuedIds y.hist).length + 1 ≤ 2 ^ 64) :
    y.nextQueueTaskId ∉ enqueuedIds y.hist := by
  intro hmem
  obtain ⟨i, hi, he⟩ := h.ids _ hmem
  rw [h.next, ← UInt64.toNat_inj, UInt64.toNat_ofNat', UInt64.toNat_ofNat'] at he
  omega

theorem enqueue (h : y.Inv) (hfit : (enqueuedIds y.hist).length + 1 ≤ 2 ^ 64) {queued : RknpuQueuedSubmit}
    (hfits : queued.Fits) (waiter : W) (timeNs : UInt64) : (y.enqueue queued waiter timeNs).Inv := by
  have hfresh := h.fresh hfit
  obtain ⟨hev, hgone⟩ := h.unknown _ hfresh
  have habsent := hgone (RknpuQueueTask.new y.nextQueueTaskId queued)
  have hids : enqueuedIds (y.enqueue queued waiter timeNs).hist =
      enqueuedIds y.hist ++ [y.nextQueueTaskId] := enqueuedIds_append ..
  have hevents : ∀ id, eventsOf id (y.enqueue queued waiter timeNs).hist = eventsOf id y.hist := by
    intro id
    exact (eventsOf_append ..).trans (List.append_nil _)
  have hothers : ∀ id, id ≠ y.nextQueueTaskId →
      (y.enqueue queued waiter timeNs).state.tasks[id]? = y.state.tasks[id]? :=
    fun id hid => tasks_enqueue_of_ne hid queued waiter timeNs
  refine ⟨?_, ?_, ?_, ?_, ?_, ?_, ?_⟩
  · exact h.queues.enqueueSubmit habsent.tasks habsent.complete queued waiter timeNs
  · rw [hids, List.length_append, List.length_singleton]
    change y.nextQueueTaskId + 1 = _
    rw [h.next]
    exact (UInt64.ofNat_add _ 1).symm
  · intro id hmem
    rw [hids] at hmem ⊢
    rw [List.length_append, List.length_singleton]
    rcases List.mem_append.mp hmem with hmem | hmem
    · obtain ⟨i, hi, rfl⟩ := h.ids id hmem
      exact ⟨i, by omega, rfl⟩
    · exact ⟨_, Nat.lt_succ_self _, (List.mem_singleton.mp hmem).trans h.next⟩
  · rw [hids]
    exact List.nodup_append'.mpr ⟨h.nodup, List.nodup_singleton _, by simpa using hfresh⟩
  · intro id queued' timeNs' he
    rw [hevents]
    rcases List.mem_append.mp he with he | he
    · have hid : id ≠ y.nextQueueTaskId := by
        rintro rfl
        exact hfresh (mem_enqueuedIds.mpr ⟨_, _, he⟩)
      obtain ⟨hfits', ℓ, hreach, hagree⟩ := h.lives id queued' timeNs' he
      exact ⟨hfits', ℓ, hreach, hagree.of_frame (hothers id hid) rfl (.refl _)⟩
    · cases List.mem_singleton.mp he
      refine ⟨hfits, Life.start y.nextQueueTaskId queued timeNs, ?_, ?_, habsent.complete, habsent.inflight⟩
      · rw [hev]
        exact .start timeNs
      · exact Std.ExtTreeMap.getElem?_modify_self.trans (by rw [Std.ExtTreeMap.getElem?_insert_self]; rfl)
  · intro id hid
    rw [hids] at hid
    simp only [List.mem_append, List.mem_singleton, not_or] at hid
    obtain ⟨hev', hgone'⟩ := h.unknown id hid.1
    rw [hevents]
    exact ⟨hev', fun t => (hgone' t).of_frame (hothers id hid.2) rfl (.refl _)⟩
  · intro setup hw
    obtain ⟨hbound, hlive⟩ := h.dispatching setup hw
    refine ⟨hbound, ?_⟩
    rw [hothers]
    · exact hlive
    · intro hid
      rw [hid] at hlive
      exact hlive habsent.tasks

/-! ## The other sections -/

theorem decide (h : y.Inv) (hw : y.worker = .free) : y.Section y.decide := by
  have hdec := NpuSchedulerState.dispatchDecision_decided h.queues.readyWF
  have htracks := tracks_decided hdec
  have hqueues : y.state.dispatchDecision.2.Consistent := by
    refine h.queues.decided ?_ hdec
    intro id t slot ht hnext
    obtain ⟨queued, timeNs, fl, _, hfits, hreach, _⟩ := h.life ht
    exact (hreach.inv hfits).hasRunningTasks_reserveSlot hnext
  have hbound := hdec.bound
  unfold Sys.decide
  split
  · rename_i he
    rw [he] at htracks hqueues
    refine ⟨⟨[], (List.append_nil _).symm, rfl, htracks⟩, rfl, hqueues, ?_⟩
    intro setup hw'
    rw [hw] at hw'
    cases hw'
  · rename_i setup state he
    rw [he] at htracks hqueues hbound
    refine ⟨⟨_, rfl, rfl, htracks⟩, rfl, hqueues, ?_⟩
    intro setup' hw'
    cases hw'
    exact hbound setup rfl

theorem launch (h : y.Inv) {setup : DispatchSetup} (hw : y.worker = .dispatching setup) (timeNs : UInt64) :
    y.Section (y.launch setup timeNs) := by
  obtain ⟨hbound, hlive⟩ := h.dispatching setup hw
  exact ⟨⟨_, rfl, rfl, tracks_markDispatched hbound hlive timeNs⟩, rfl,
    h.queues.markDispatched setup.binding.taskId timeNs, nofun⟩

theorem fail (h : y.Inv) {setup : DispatchSetup} (hw : y.worker = .dispatching setup) (err : RknpuError) :
    y.Section (y.fail setup err) := by
  obtain ⟨hbound, hlive⟩ := h.dispatching setup hw
  refine ⟨⟨_, List.append_assoc .., ?_, ?_⟩, rfl, h.queues.failDispatch _ _ err, nofun⟩
  · rw [enqueuedIds_append, enqueuedIds_movedEvent]
    rfl
  · intro id ℓ hagree
    rw [eventsOf_append, eventsOf_movedEvent, List.append_nil]
    exact tracks_failDispatch hbound hlive err id ℓ hagree

theorem harvest (h : y.Inv) (completions : List (CoreCompletion × UInt64)) :
    y.Section (y.harvest completions) :=
  ⟨⟨_, rfl, enqueuedIds_harvestEvents completions y.state, tracks_harvestCompletions completions h.queues⟩, rfl,
    h.queues.harvestCompletions completions, nofun⟩

theorem wake (h : y.Inv) (taskIds : List RknpuQueueTaskId) (prepareError : Bool) :
    y.Section (y.wake taskIds prepareError) :=
  ⟨⟨_, rfl, enqueuedIds_wakeEvents prepareError taskIds y.state,
    tracks_wakeTerminalTasks prepareError taskIds y.state⟩, rfl,
    h.queues.wakeTerminalTasks prepareError taskIds, nofun⟩

theorem take (h : y.Inv) (taskId : RknpuQueueTaskId) : y.Section (y.take taskId) := by
  have hframe : (y.take taskId).state.tasks = y.state.tasks ∧
      (y.take taskId).state.coreBinding = y.state.coreBinding := by
    simp only [Sys.take, NpuSchedulerState.takeTerminalSubmit]
    split <;> exact ⟨rfl, rfl⟩
  refine ⟨⟨_, rfl, ?_, tracks_takeTerminalSubmit y.state taskId⟩, rfl, h.queues.takeTerminalSubmit taskId, ?_⟩
  · cases y.state.complete[taskId]? <;> rfl
  · intro setup hw
    rw [hframe.1, hframe.2]
    exact h.dispatching setup hw

/-- The abort of a live submit. -/
theorem lives_abort {ℓ : Life} (hagree : Agrees y.state taskId ℓ) (hlive : ℓ.place = .live) :
    eventsOf taskId (y.abort taskId).hist = eventsOf taskId y.hist ++ [.aborted] ∧
      ∃ ℓ', Life.Step ℓ .aborted ℓ' ∧ Agrees (y.abort taskId).state taskId ℓ' := by
  have htasks := hagree.tasks
  rw [if_pos hlive] at htasks
  have hknown : (y.state.tasks.contains taskId || y.state.complete.contains taskId) = true := by
    rw [Std.ExtTreeMap.contains_eq_isSome_getElem?, htasks]
    rfl
  obtain ⟨ℓ', hsteps, hagree'⟩ := tracks_abortWait y.state taskId taskId ℓ hagree
  rw [if_pos hknown, eventsOf_submit_self] at hsteps
  refine ⟨?_, ℓ', ?_, hagree'⟩
  · unfold Sys.abort
    simp only [hknown, ↓reduceIte, eventsOf_append, eventsOf_movedEvent, List.append_nil, eventsOf_submit_self]
  · cases hsteps with
    | cons hstep hnil =>
        cases hnil
        exact hstep

/-- An abort leaves bound submits live. -/
theorem abort (h : y.Inv) (taskId : RknpuQueueTaskId) : y.Section (y.abort taskId) := by
  have htracks : Tracks y.state
      ((if y.state.tasks.contains taskId || y.state.complete.contains taskId then
        [.submit taskId .aborted] else []) ++
        movedEvent (abortMoved y.state taskId) y.state) (y.abort taskId).state := by
    intro id ℓ hagree
    rw [eventsOf_append, eventsOf_movedEvent, List.append_nil]
    exact tracks_abortWait y.state taskId id ℓ hagree
  refine ⟨⟨_, List.append_assoc .., ?_, htracks⟩, rfl, h.queues.abortWait taskId, ?_⟩
  · rw [enqueuedIds_append, enqueuedIds_movedEvent, List.append_nil]
    split <;> rfl
  · intro setup hw
    obtain ⟨hbound, hlive⟩ := h.dispatching setup hw
    refine ⟨by rw [← hbound]; exact congrArg (·[setup.coreSlot]?) (y.state.abortWait_coreBinding taskId), ?_⟩
    obtain ⟨t, ht⟩ := Option.ne_none_iff_exists'.mp hlive
    obtain ⟨queued, timeNs, fl, _, hfits, hreach, hagree⟩ := h.life ht
    have hmem : setup.binding.slot setup.coreSlot ∈ fl :=
      hagree.inflight.mem_iff.mp (mem_inflightOf.mpr ⟨setup.binding, hbound, rfl, rfl⟩)
    have hplace : ∃ ℓ', ℓ'.place = .live ∧ Agrees (y.abort taskId).state setup.binding.taskId ℓ' := by
      by_cases hid : taskId = setup.binding.taskId
      · subst hid
        obtain ⟨_, ℓ', hstep, hagree'⟩ := lives_abort hagree rfl
        exact ⟨ℓ', (hreach.inv hfits).live_of_aborted rfl (List.ne_nil_of_mem hmem) hstep, hagree'⟩
      · obtain ⟨ℓ', hsteps, hagree'⟩ := tracks_abortWait y.state taskId _ _ hagree
        have hnone : eventsOf setup.binding.taskId
            (if y.state.tasks.contains taskId || y.state.complete.contains taskId then
              [.submit taskId .aborted] else []) = [] := by
          split
          · exact eventsOf_submit_of_ne hid _
          · rfl
        rw [hnone] at hsteps
        cases hsteps
        exact ⟨_, rfl, hagree'⟩
    obtain ⟨ℓ', hplace, hagree'⟩ := hplace
    rw [hagree'.tasks, if_pos hplace]
    exact nofun

/-! ## Every run -/

/-- Every step enqueues or is a section. -/
theorem step_cases (h : y.Inv) {a : Act W} (hs : y.step a = some y') :
    (∃ submit tasks t0Ns waiter timeNs, a = .enqueue submit tasks t0Ns waiter timeNs ∧
      y' = y.enqueue (queuedSubmit submit tasks t0Ns) waiter timeNs) ∨ y.Section y' := by
  cases Sys.step_cases hs with
  | enqueue submit tasks t0Ns waiter timeNs => exact .inl ⟨_, _, _, _, _, rfl, rfl⟩
  | decide hw => exact .inr (h.decide hw)
  | launch timeNs hw => exact .inr (h.launch hw timeNs)
  | fail err hw => exact .inr (h.fail hw err)
  | harvest completions hw => exact .inr (h.harvest completions)
  | wake deviceError hw => exact .inr (h.wake _ _)
  | abort taskId => exact .inr (h.abort taskId)
  | take taskId => exact .inr (h.take taskId)

theorem step (h : y.Inv) {a : Act W} (hfit : y'.IdsFit) (hs : y.step a = some y') : y'.Inv := by
  rcases h.step_cases hs with ⟨submit, tasks, t0Ns, waiter, timeNs, rfl, rfl⟩ | hsec
  · have hfits : (queuedSubmit submit tasks t0Ns).Fits := RknpuQueuedSubmit.fits_new submit tasks
    exact h.enqueue hfit.of_enqueue hfits waiter timeNs
  · exact h.of_section hsec

/-- A step moves every enqueued submit along its own part of what the step records. -/
theorem lives_step (h : y.Inv) {a : Act W} (hfit : y'.IdsFit) (hs : y.step a = some y')
    (hmem : taskId ∈ enqueuedIds y.hist) {ℓ : Life} (hagree : Agrees y.state taskId ℓ) :
    ∃ evs ℓ', eventsOf taskId y'.hist = eventsOf taskId y.hist ++ evs ∧ Life.Steps ℓ evs ℓ' ∧
      Agrees y'.state taskId ℓ' ∧ ∀ e ∈ evs, y.StepEvent a (.submit taskId e) := by
  obtain ⟨evs, hhist, hevents⟩ := Sys.step_events hs
  refine ⟨eventsOf taskId evs, ?_⟩
  rw [hhist, eventsOf_append]
  have hkinds : ∀ e ∈ eventsOf taskId evs, y.StepEvent a (.submit taskId e) :=
    fun e he => hevents _ (mem_eventsOf.mp he)
  rcases h.step_cases hs with ⟨submit, tasks, t0Ns, waiter, timeNs, rfl, rfl⟩ | ⟨⟨evs', hhist', _, htracks⟩, _⟩
  · have hid : taskId ≠ y.nextQueueTaskId := by
      rintro rfl
      exact h.fresh hfit.of_enqueue hmem
    rw [← List.append_cancel_left hhist] at hkinds ⊢
    exact ⟨ℓ, rfl, .nil, hagree.of_frame (tasks_enqueue_of_ne hid ..) rfl (.refl _), hkinds⟩
  · obtain ⟨ℓ', hsteps, hagree'⟩ := htracks taskId ℓ hagree
    rw [← List.append_cancel_left (hhist.symm.trans hhist')] at hsteps
    exact ⟨ℓ', rfl, hsteps, hagree', hkinds⟩

end Sys.Inv

/-- A step adds events to the history and takes none away. -/
theorem Sys.step_hist {y y' : Sys W} {a : Act W} (hs : y.step a = some y') : y.hist <+: y'.hist := by
  obtain ⟨evs, hhist, _⟩ := Sys.step_dispatching hs
  exact ⟨evs, hhist.symm⟩

theorem Sys.IdsFit.of_prefix {y y' : Sys W} (h : y'.IdsFit) (hpre : y.hist <+: y'.hist) : y.IdsFit := by
  obtain ⟨evs, he⟩ := hpre
  rw [Sys.IdsFit, ← he, enqueuedIds_append, List.length_append] at h
  unfold Sys.IdsFit
  omega

theorem Sys.IdsFit.of_step {y y' : Sys W} {a : Act W} (hs : y.step a = some y') (h : y'.IdsFit) : y.IdsFit :=
  h.of_prefix (Sys.step_hist hs)

theorem Sys.IdsFit.of_reaches {y y' : Sys W} (h : (scheduler W).Reaches y y') (hfit : y'.IdsFit) : y.IdsFit := by
  obtain ⟨acts, hrun⟩ := h
  refine Machine.runFrom_induction (M := scheduler W) (P := fun _ y' => y'.IdsFit → y.IdsFit) id ?_ hrun hfit
  exact fun _ _ _ _ _ ih hs hfit' => ih (hfit'.of_step hs)

/-- The states that a run passes through fit when its last one does. -/
theorem Sys.IdsFit.of_takes {acts : List (Act W)} {y₀ y : Sys W} {a : Act W} (h : (scheduler W).Takes acts y₀ a)
    (hrun : (scheduler W).run acts = some y) (hfit : y.IdsFit) : y₀.IdsFit := by
  obtain ⟨y₁, after, hstep, hafter⟩ := h.step hrun
  exact IdsFit.of_step hstep (.of_reaches ⟨after, hafter⟩ hfit)

/-- Every run that hands out no id twice keeps the invariant. -/
theorem Sys.inv_of_run {acts : List (Act W)} {y : Sys W} (hrun : (scheduler W).run acts = some y)
    (hfit : y.IdsFit) : y.Inv := by
  refine Machine.run_induction (M := scheduler W) (P := fun _ y => y.IdsFit → y.Inv) ?_ ?_ hrun hfit
  · exact fun _ => Sys.Inv.init
  · intro _ y a y' _ ih hs hfit'
    exact (ih (hfit'.of_step hs)).step hfit' hs

/-- The life of an enqueued submit along a run. -/
theorem Sys.Inv.lives_run {y y' : Sys W} (h : y.Inv) (hreach : (scheduler W).Reaches y y') (hfit : y'.IdsFit)
    {taskId : RknpuQueueTaskId} (hmem : taskId ∈ enqueuedIds y.hist) {ℓ : Life} (hagree : Agrees y.state taskId ℓ) :
    ∃ evs ℓ', eventsOf taskId y'.hist = eventsOf taskId y.hist ++ evs ∧ Life.Steps ℓ evs ℓ' ∧
      Agrees y'.state taskId ℓ' := by
  obtain ⟨acts, hrun⟩ := hreach
  have hall : y'.IdsFit → y'.Inv ∧ taskId ∈ enqueuedIds y'.hist ∧ ∃ evs ℓ',
      eventsOf taskId y'.hist = eventsOf taskId y.hist ++ evs ∧ Life.Steps ℓ evs ℓ' ∧ Agrees y'.state taskId ℓ' := by
    refine Machine.runFrom_induction (M := scheduler W) (P := fun _ y' => y'.IdsFit → y'.Inv ∧
      taskId ∈ enqueuedIds y'.hist ∧ ∃ evs ℓ', eventsOf taskId y'.hist = eventsOf taskId y.hist ++ evs ∧
        Life.Steps ℓ evs ℓ' ∧ Agrees y'.state taskId ℓ') ?_ ?_ hrun
    · exact fun _ => ⟨h, hmem, [], ℓ, (List.append_nil _).symm, .nil, hagree⟩
    · intro _ z a z' _ ih hs hfit'
      obtain ⟨hinv, hmem, evs, ℓ₁, hevents, hsteps, hagree₁⟩ := ih (hfit'.of_step hs)
      obtain ⟨evs', ℓ₂, hevents', hsteps', hagree₂, _⟩ := hinv.lives_step hfit' hs hmem hagree₁
      refine ⟨hinv.step hfit' hs, ?_, evs ++ evs', ℓ₂, ?_, hsteps.append hsteps', hagree₂⟩
      · obtain ⟨evs, he⟩ := Sys.step_hist hs
        rw [← he, enqueuedIds_append]
        exact List.mem_append_left _ hmem
      · rw [hevents', hevents, List.append_assoc]
  exact (hall hfit).2.2

end Rknpu.Service
