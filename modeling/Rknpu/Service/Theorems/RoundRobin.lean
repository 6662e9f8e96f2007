import Rknpu.Service.Theorems.Fairness

/-!
# Round robin between submits with one lane

A completion files its submit at the end of its Ready queue. A submit with one lane has nothing else in flight, so its
next task is found in that queue, behind every submit of the same priority that waited there before.
-/

namespace Rknpu.Service

open Queue

variable {W : Type} {s s' : NpuSchedulerState W} {a b : RknpuQueueTaskId} {t : RknpuQueueTask} {evs : List Event}

/-! ## Two submits in line -/

/-- `a` runs nothing, `b` rests with the record `t`, and in Ready `b` stands before `a`. -/
structure InLine (s : NpuSchedulerState W) (a b : RknpuQueueTaskId) (t : RknpuQueueTask) : Prop where
  idle : ∃ ℓ, Agrees s a ℓ ∧ ℓ.inflight = []
  rest : Agrees s b ⟨t, .live, []⟩
  order : s.ready.Follows (fun id => id == a || id == b) [b, a]

/-- The submits stay in line until one of them moves. -/
theorem InLine.tracks (h : InLine s a b t) (htracks : Tracks s evs s') (hres : a ∉ reservedIds evs)
    (hyield : ∀ e ∈ eventsOf b evs, ¬ e.Yields) (horder : s'.ready.Follows (fun id => id == a || id == b) [b, a]) :
    InLine s' a b t := by
  obtain ⟨ℓ, hagree, hidle⟩ := h.idle
  obtain ⟨ℓ', hsteps, hagree'⟩ := htracks a ℓ hagree
  obtain ⟨ℓ₁, hsteps₁, hrest⟩ := htracks b _ h.rest
  refine ⟨⟨ℓ', hagree', ?_⟩, ?_, horder⟩
  · have hsub := hsteps.inflight_sublist (reservedSlots_eq_nil hres)
    rw [hidle] at hsub
    exact List.sublist_nil.mp hsub
  · rcases hsteps₁.at_rest with ⟨_, rfl⟩ | ⟨e, he, hy⟩
    · exact hrest
    · exact (hyield e he hy).elim

/-- The one that rests is not bound, and the other may go to the end. -/
theorem InLine.boundMayRequeue (hrest : Agrees s b ⟨t, .live, []⟩) :
    s.BoundMayRequeue (fun id => id == a || id == b) [b, a] := by
  intro coreSlot binding hcore
  by_cases ha : binding.taskId = a
  · exact .inr ⟨[b], by rw [ha]; rfl⟩
  · have hb : binding.taskId ≠ b := by
      rintro rfl
      have hslot := hrest.inflight.mem_iff.mp (slot_mem_inflightOf hcore)
      cases hslot
    exact .inl (by simp [ha, hb])

theorem harvestEvents_not_yields {completions : List (CoreCompletion × UInt64)} {e : SubmitEvent}
    (he : e ∈ eventsOf b (Sys.harvestEvents completions s)) : ¬ e.Yields := by
  cases HarvestEvent.of_mem (mem_eventsOf.mp he) with
  | harvested => exact id
  | orphaned => exact id

theorem reservedIds_harvestEvents (completions : List (CoreCompletion × UInt64)) (s : NpuSchedulerState W) :
    reservedIds (Sys.harvestEvents completions s) = [] := by
  refine List.eq_nil_iff_forall_not_mem.mpr fun id hid => ?_
  obtain ⟨slot, hmem⟩ := mem_reservedIds.mp hid
  cases HarvestEvent.of_mem hmem

theorem InLine.harvest (h : InLine s a b t) (hs : s.Consistent) (hq : s.Queued)
    (completions : List (CoreCompletion × UInt64)) : InLine (s.harvestCompletions completions).2 a b t := by
  refine h.tracks (tracks_harvestCompletions completions hs) ?_ (fun e => harvestEvents_not_yields) ?_
  · rw [reservedIds_harvestEvents]
    exact List.not_mem_nil
  · exact NpuSchedulerState.follows_harvestCompletions h.order hq (InLine.boundMayRequeue h.rest) completions

/-! ## The completion that puts them in line -/

/-- A completion of `a` finds `b` waiting in Ready with the same priority, and `b` may run wherever `a` may. -/
structure CompletesBefore (s : NpuSchedulerState W) (completion : CoreCompletion) (a : RknpuQueueTaskId)
    (ta : RknpuQueueTask) (b : RknpuQueueTaskId) (tb : RknpuQueueTask) : Prop where
  bound : ∃ binding, s.coreBinding[completion.coreSlot.toNat]? = some binding ∧ binding.taskId = a
  live : s.tasks[a]? = some ta
  single : ta.submitMeta.SingleLane
  ready : s.ready.Holds b
  waits : s.tasks[b]? = some tb
  dispatchable : tb.hasDispatchableTask = true
  priority : tb.submitMeta.priority = ta.submitMeta.priority
  cores : ta.submitMeta.allowedCores ⊆ tb.submitMeta.allowedCores

theorem sublist_singleton_of_nodup {α : Type} {l : List α} {x : α} (hnd : l.Nodup) (h : ∀ y ∈ l, y = x) :
    l.Sublist [x] := by
  cases l with
  | nil => exact List.nil_sublist _
  | cons y l =>
      obtain rfl := h y List.mem_cons_self
      have hnil : l = [] := by
        refine List.eq_nil_iff_forall_not_mem.mpr fun z hz => ?_
        obtain rfl := h z (List.mem_cons_of_mem _ hz)
        exact (List.nodup_cons.mp hnd).1 hz
      rw [hnil]

/-- The life of a live submit that runs nothing. -/
theorem Sys.Inv.at_rest {y : Sys W} (h : y.Inv) (ht : y.state.tasks[b]? = some t) (hidle : t.hasRunningTasks = false) :
    Agrees y.state b ⟨t, .live, []⟩ := by
  obtain ⟨_, _, fl, _, hfits, hreach, hagree⟩ := h.life ht
  have hnil : fl = [] := by
    by_contra hne
    have hrun := ((hreach.inv hfits).hasRunningTasks_iff rfl).mpr hne
    rw [show _ = false from hidle] at hrun
    cases hrun
  rwa [hnil] at hagree

theorem CompletesBefore.inLine {y : Sys W} {completion : CoreCompletion} {ta tb : RknpuQueueTask}
    (h : CompletesBefore y.state completion a ta b tb) (hinv : y.Inv) (timeNs : UInt64) :
    InLine (y.state.harvestCompletion completion timeNs).2 a b tb := by
  obtain ⟨binding, hcore, rfl⟩ := h.bound
  obtain ⟨queued, _, fl, _, hfits, hreach, hagree⟩ := hinv.life h.live
  have hlife := hreach.inv hfits
  -- The completing task is the only one of its submit in flight.
  obtain ⟨hmem, _⟩ := hagree.perm_erase hcore rfl
  have hrun : ta.hasRunningTasks = true := (hlife.hasRunningTasks_iff rfl).mpr (List.ne_nil_of_mem hmem)
  have hone : fl.length ≤ 1 := hlife.length_inflight_le_one rfl (hlife.submitMeta ▸ h.single)
  have hrest : Agrees y.state b ⟨tb, .live, []⟩ := by
    obtain ⟨p, hp⟩ := h.ready
    obtain ⟨t, ht, _, hidle⟩ := (hinv.queues.filed b).ready p hp
    cases h.waits.symm.trans ht
    exact hinv.at_rest h.waits hidle
  have hevents : eventsOf binding.taskId (Sys.harvestEvent y.state completion timeNs) =
      [.harvested (binding.slot completion.coreSlot.toNat) completion.observedIrqStatus timeNs] := by
    simp [Sys.harvestEvent, hcore, Std.ExtTreeMap.contains_eq_isSome_getElem?, h.live, eventsOf]
  have htracks := tracks_harvestCompletion hinv.queues completion timeNs
  refine ⟨?_, ?_, ?_⟩
  · obtain ⟨ℓ', hsteps, hagree'⟩ := htracks _ _ hagree
    refine ⟨ℓ', hagree', ?_⟩
    rw [hevents] at hsteps
    cases hsteps with
    | cons hstep hnil =>
        cases hnil
        cases hstep with
        | harvested hslot =>
            refine List.eq_nil_of_length_eq_zero ?_
            rw [List.length_erase_of_mem hslot]
            omega
  · obtain ⟨ℓ', hsteps, hagree'⟩ := htracks _ _ hrest
    rcases hsteps.at_rest with ⟨_, rfl⟩ | ⟨e, he, hy⟩
    · exact hagree'
    · cases HarvestEvent.of_mem_harvestEvent (mem_eventsOf.mp he) with
      | harvested => exact hy.elim
      | orphaned => exact hy.elim
  · refine NpuSchedulerState.follows_harvestCompletion ?_ hinv.queues.readyWF (InLine.boundMayRequeue hrest) _ _
    intro p queue hq
    refine (sublist_singleton_of_nodup ((hinv.queues.readyWF.nodup p queue hq).filter _) fun id hid => ?_).trans
      (List.sublist_append_left [b] [binding.taskId])
    obtain ⟨hmem, hkeep⟩ := List.mem_filter.mp hid
    rcases Bool.or_eq_true _ _ |>.mp hkeep with ha | hb
    · -- The submit of the completion runs, so it does not stand in Ready.
      obtain ⟨t, ht, _, hidle⟩ := (hinv.queues.filed id).ready p ⟨queue, hq, hmem⟩
      rw [beq_iff_eq.mp ha] at ht
      cases h.live.symm.trans ht
      rw [hrun] at hidle
      cases hidle
    · exact beq_iff_eq.mp hb

theorem CompletesBefore.ne {y : Sys W} {completion : CoreCompletion} {ta tb : RknpuQueueTask}
    (h : CompletesBefore y.state completion a ta b tb) (hinv : y.Inv) : a ≠ b := by
  rintro rfl
  obtain ⟨binding, hcore, rfl⟩ := h.bound
  obtain ⟨p, hp⟩ := h.ready
  obtain ⟨t, ht, _, hidle⟩ := (hinv.queues.filed _).ready p hp
  have hslot := (hinv.at_rest ht hidle).inflight.mem_iff.mp (slot_mem_inflightOf hcore)
  cases hslot

/-! ## The way to the next reservation -/

/-- The record of a submit without a task in flight. -/
theorem Sys.Inv.idle_record {y : Sys W} (h : y.Inv) {ℓ : Life} (hagree : Agrees y.state a ℓ) (hidle : ℓ.inflight = [])
    (ht : y.state.tasks[a]? = some t) : t.hasRunningTasks = false := by
  obtain ⟨_, _, fl, _, hfits, hreach, hagree'⟩ := h.life ht
  have hnil : fl = [] := by
    have hperm := hagree'.inflight.symm.trans hagree.inflight
    rw [hidle] at hperm
    exact List.perm_nil.mp hperm
  rw [← Bool.not_eq_true]
  exact fun hrun => ((hreach.inv hfits).hasRunningTasks_iff rfl).mp hrun hnil

/-- Submits in line are not served the other way round. -/
theorem InLine.not_decided {y : Sys W} (h : InLine y.state a b t) (hinv : y.Inv) (hne : a ≠ b)
    (hdisp : t.hasDispatchableTask = true)
    (hpeer : ∀ ta, y.state.tasks[a]? = some ta → t.submitMeta.priority = ta.submitMeta.priority ∧
      ta.submitMeta.allowedCores ⊆ t.submitMeta.allowedCores) {setup : DispatchSetup}
    (hdec : y.state.dispatchDecision.1 = some setup) : setup.binding.taskId ≠ a := by
  rintro rfl
  obtain ⟨ta, hta⟩ := hinv.queues.decision_live hdec
  obtain ⟨hpriority, hcores⟩ := hpeer ta hta
  obtain ⟨ℓ, hagree, hidle⟩ := h.idle
  have hb : y.state.tasks[b]? = some t := h.rest.tasks
  obtain ⟨before, after, hqueue, hafter⟩ := hinv.queues.found_first hdec hta (hinv.idle_record hagree hidle hta)
    (Ne.symm hne) hb (hinv.idle_record h.rest rfl hb) hdisp hcores (by rw [hpriority]; exact Int32.le_refl _)
  have hnd : [b, setup.binding.taskId].Nodup := by simp [Ne.symm hne]
  exact PrioBuckets.not_sublist_swap hnd (.refl _) (h.order.pair_sublist hqueue hafter (by simp) (by simp))

theorem InLine.step {y y' : Sys W} (h : InLine y.state a b t) (hinv : y.Inv) (hq : y.state.Queued) (hne : a ≠ b)
    (hdisp : t.hasDispatchableTask = true)
    (hpeer : ∀ ta, y.state.tasks[a]? = some ta → t.submitMeta.priority = ta.submitMeta.priority ∧
      ta.submitMeta.allowedCores ⊆ t.submitMeta.allowedCores) {act : Act W} (hfit : y'.IdsFit)
    (hs : y.step act = some y') (ha : a ∈ enqueuedIds y.hist) (hb : b ∈ enqueuedIds y.hist) :
    ∃ evs, y'.hist = y.hist ++ evs ∧
      ((∃ e ∈ eventsOf b evs, e.Yields) ∨ a ∉ reservedIds evs ∧ InLine y'.state a b t) := by
  obtain ⟨evs, hhist⟩ := Sys.step_hist hs
  refine ⟨evs, hhist.symm, ?_⟩
  by_cases hyield : ∃ e ∈ eventsOf b evs, e.Yields
  · exact .inl hyield
  push Not at hyield
  have hres : a ∉ reservedIds evs := by
    intro hmem
    have hgrow : reservedIds y'.hist = reservedIds y.hist ++ reservedIds evs := by rw [← hhist, reservedIds_append]
    rcases Sys.reservedIds_step hs with he | ⟨setup, hdec, he⟩
    · rw [he, List.self_eq_append_right] at hgrow
      rw [hgrow] at hmem
      cases hmem
    · rw [he, List.append_cancel_left_eq] at hgrow
      rw [← hgrow] at hmem
      exact h.not_decided hinv hne hdisp hpeer hdec (List.mem_singleton.mp hmem).symm
  refine .inr ⟨hres, ?_⟩
  rcases hinv.step_cases hs with ⟨submit, tasks, t0Ns, waiter, timeNs, rfl, rfl⟩ | ⟨⟨evs', hhist', hnone, htracks⟩, _⟩
  · have hnew : ∀ id ∈ enqueuedIds y.hist, id ≠ y.nextQueueTaskId := by
      rintro _ hmem rfl
      exact hinv.fresh hfit.of_enqueue hmem
    obtain ⟨ℓ, hagree, hidle⟩ := h.idle
    refine ⟨⟨ℓ, hagree.of_frame (Sys.tasks_enqueue_of_ne (hnew a ha) ..) rfl (.refl _), hidle⟩,
      h.rest.of_frame (Sys.tasks_enqueue_of_ne (hnew b hb) ..) rfl (.refl _), h.order.push_of_not _ ?_⟩
    simp [(hnew a ha).symm, (hnew b hb).symm]
  · rw [← List.append_cancel_left (hhist.trans hhist')] at htracks
    refine h.tracks htracks hres hyield (Sys.follows_step hs hq h.order (InLine.boundMayRequeue h.rest) ?_)
    rintro submit tasks t0Ns waiter timeNs rfl
    -- A section records no enqueue.
    cases Sys.step_cases hs
    rw [← List.append_cancel_left hhist'] at hnone
    cases hnone

theorem Sys.Inv.submitMeta_of_enqueued {y : Sys W} (h : y.Inv) {queued : RknpuQueuedSubmit} {timeNs : UInt64}
    (he : .enqueued a queued timeNs ∈ y.hist) (ht : y.state.tasks[a]? = some t) : t.submitMeta = queued.submitMeta := by
  obtain ⟨queued', _, fl, he', hfits, hreach, _⟩ := h.life ht
  obtain ⟨rfl, _⟩ := h.enqueued_unique he he'
  exact (hreach.inv hfits).submitMeta

/-- Every run from submits in line keeps them so until one moves, and `b` moves first. -/
theorem InLine.run {acts : List (Act W)} {y₁ y : Sys W} (hrun : (scheduler W).run acts = some y₁)
    (h : InLine y₁.state a b t) (hne : a ≠ b) (hdisp : t.hasDispatchableTask = true) {queued : RknpuQueuedSubmit}
    {timeNs : UInt64} (ha : .enqueued a queued timeNs ∈ y₁.hist) (hb : b ∈ enqueuedIds y₁.hist)
    (hpriority : t.submitMeta.priority = queued.submitMeta.priority)
    (hcores : queued.submitMeta.allowedCores ⊆ t.submitMeta.allowedCores) {later : List (Act W)}
    (hlater : (scheduler W).runFrom y₁ later = some y) (hfit : y.IdsFit) :
    ∃ since, y.hist = y₁.hist ++ since ∧
      ((∃ e ∈ eventsOf b since, e.Yields) ∨ a ∉ reservedIds since ∧ InLine y.state a b t) := by
  refine Machine.runFrom_induction (M := scheduler W) (P := fun _ y => y.IdsFit → ∃ since, y.hist = y₁.hist ++ since ∧
    ((∃ e ∈ eventsOf b since, e.Yields) ∨ a ∉ reservedIds since ∧ InLine y.state a b t)) ?_ ?_ hlater hfit
  · exact fun _ => ⟨[], (List.append_nil _).symm, .inr ⟨List.not_mem_nil, h⟩⟩
  · intro later y act y' hlater ih hs hfit'
    have hfit := hfit'.of_step hs
    obtain ⟨since, hhist, hyield | ⟨hres, hline⟩⟩ := ih hfit
    · obtain ⟨evs, hevs⟩ := Sys.step_hist hs
      refine ⟨since ++ evs, by rw [← hevs, hhist, List.append_assoc], .inl ?_⟩
      obtain ⟨e, he, hy⟩ := hyield
      exact ⟨e, by rw [eventsOf_append]; exact List.mem_append_left _ he, hy⟩
    · have hrun' := Machine.run_append hrun hlater
      have hinv := Sys.inv_of_run hrun' hfit
      have ha' : .enqueued a queued timeNs ∈ y.hist := by
        rw [hhist]
        exact List.mem_append_left _ ha
      have hb' : b ∈ enqueuedIds y.hist := by
        rw [hhist, enqueuedIds_append]
        exact List.mem_append_left _ hb
      obtain ⟨evs, hevs, hnext⟩ := hline.step hinv (Sys.queued_of_run hrun') hne hdisp (fun ta hta => by
        rw [hinv.submitMeta_of_enqueued ha' hta]
        exact ⟨hpriority, hcores⟩) hfit' hs (mem_enqueuedIds.mpr ⟨_, _, ha'⟩) hb'
      refine ⟨since ++ evs, by rw [hevs, hhist, List.append_assoc], hnext.imp ?_ ?_⟩
      · rintro ⟨e, he, hy⟩
        exact ⟨e, by rw [eventsOf_append]; exact List.mem_append_right _ he, hy⟩
      · rintro ⟨hres', hline'⟩
        rw [reservedIds_append, List.mem_append, not_or]
        exact ⟨⟨hres, hres'⟩, hline'⟩

/-! ## The theorem -/

theorem harvestCompletions_append (s : NpuSchedulerState W) (completions completions' : List (CoreCompletion × UInt64)) :
    (s.harvestCompletions (completions ++ completions')).2 =
      ((s.harvestCompletions completions).2.harvestCompletions completions').2 := by
  induction completions generalizing s with
  | nil => rfl
  | cons c completions ih =>
      rw [List.cons_append, NpuSchedulerState.harvestCompletions_cons, NpuSchedulerState.harvestCompletions_cons]
      exact ih _

/-- Round robin: after a completion of a static submit `a` with one lane that finds `b` waiting in Ready, `a` is not
reserved again before `b` is reserved, aborted or failed, as long as no id is handed out twice. -/
theorem round_robin {acts : List (Act W)} {y₀ y₁ y : Sys W} (hrun : (scheduler W).run acts = some y₀)
    {before after : List (CoreCompletion × UInt64)} {completion : CoreCompletion} {timeNs : UInt64}
    (hs : y₀.step (.harvest (before ++ (completion, timeNs) :: after)) = some y₁) {ta tb : RknpuQueueTask}
    (h : CompletesBefore (y₀.state.harvestCompletions before).2 completion a ta b tb) {later : List (Act W)}
    (hlater : (scheduler W).runFrom y₁ later = some y) (hfit : y.IdsFit) :
    ∃ since, y.hist = y₁.hist ++ since ∧ (a ∈ reservedIds since → ∃ e ∈ eventsOf b since, e.Yields) := by
  have hfit₁ : y₁.IdsFit := Sys.IdsFit.of_reaches ⟨later, hlater⟩ hfit
  have hinv₀ := Sys.inv_of_run hrun (hfit₁.of_step hs)
  -- The state in which the completion is recorded, as a state of its own.
  have hmid : (y₀.harvest before).Inv := hinv₀.of_section (hinv₀.harvest before)
  have hq : (y₀.state.harvestCompletions before).2.Queued := (Sys.queued_of_run hrun).harvestCompletions before
  have hne := CompletesBefore.ne (y := y₀.harvest before) h hmid
  have hline : InLine y₁.state a b tb := by
    cases Sys.step_cases hs with
    | harvest _ _ =>
        change InLine (y₀.state.harvestCompletions (before ++ (completion, timeNs) :: after)).2 a b tb
        rw [harvestCompletions_append, NpuSchedulerState.harvestCompletions_cons]
        exact (CompletesBefore.inLine (y := y₀.harvest before) h hmid timeNs).harvest
          (hmid.queues.harvestCompletion completion timeNs) (hq.harvestCompletion completion timeNs) after
  have henqueued : ∀ id, (y₀.state.harvestCompletions before).2.tasks[id]? ≠ none → id ∈ enqueuedIds y₀.hist := by
    intro id hlive
    have hmem : id ∈ enqueuedIds (y₀.hist ++ Sys.harvestEvents before y₀.state) := hmid.enqueued_of_live hlive
    rwa [enqueuedIds_append, enqueuedIds_harvestEvents, List.append_nil] at hmem
  obtain ⟨queued, t₀, he⟩ := mem_enqueuedIds.mp (henqueued a (by rw [h.live]; exact nofun))
  have hmeta : ta.submitMeta = queued.submitMeta :=
    hmid.submitMeta_of_enqueued (List.mem_append_left _ he) h.live
  obtain ⟨evs, hevs⟩ := Sys.step_hist hs
  have hrun₁ : (scheduler W).run (acts ++ [.harvest (before ++ (completion, timeNs) :: after)]) = some y₁ :=
    Machine.run_snoc hrun hs
  obtain ⟨since, hhist, hsince⟩ := InLine.run hrun₁ hline hne h.dispatchable
    (hevs ▸ List.mem_append_left evs he)
    (by rw [← hevs, enqueuedIds_append]; exact List.mem_append_left _ (henqueued b (by rw [h.waits]; exact nofun)))
    (h.priority.trans (by rw [hmeta])) (hmeta ▸ h.cores) hlater hfit
  refine ⟨since, hhist, fun hres => ?_⟩
  rcases hsince with hyield | ⟨hno, _⟩
  · exact hyield
  · exact (hno hres).elim

/-- A completion on a core, with the expected status. -/
def completesOn (coreSlot : UInt8) : CoreCompletion × UInt64 := (⟨coreSlot, 1, 0⟩, 0)

/-- Submit `a` completes its first task on a core while `b` waits, as far as it can be evaluated. -/
def completesBefore (y : Sys Unit) (coreSlot : UInt8) (a b : RknpuQueueTaskId) : Bool :=
  (y.state.coreBinding[coreSlot.toNat]?.any fun binding => binding.taskId == a) &&
    decide (y.state.ready[(0 : Int32)]? = some [b]) &&
    y.state.tasks[a]?.any fun ta => y.state.tasks[b]?.any fun tb => decide (ta.submitMeta.SingleLane ∧
      tb.hasDispatchableTask = true ∧ tb.submitMeta.priority = ta.submitMeta.priority ∧
      ta.submitMeta.allowedCores ⊆ tb.submitMeta.allowedCores)

theorem CompletesBefore.of_eval {y : Sys Unit} {coreSlot : UInt8} (h : completesBefore y coreSlot a b = true) :
    ∃ ta tb, CompletesBefore y.state (completesOn coreSlot).1 a ta b tb := by
  simp only [completesBefore, Bool.and_eq_true, decide_eq_true_eq] at h
  obtain ⟨⟨hcore, hready⟩, hrecords⟩ := h
  obtain ⟨binding, hbound, hid⟩ := (Option.any_eq_true _ _).mp hcore
  obtain ⟨ta, hta, hrecords⟩ := (Option.any_eq_true _ _).mp hrecords
  obtain ⟨tb, htb, hrecords⟩ := (Option.any_eq_true _ _).mp hrecords
  obtain ⟨hsingle, hdisp, hpriority, hcores⟩ := of_decide_eq_true hrecords
  exact ⟨ta, tb, ⟨binding, hbound, beq_iff_eq.mp hid⟩, hta, hsingle, ⟨0, [b], hready, by simp⟩, htb, hdisp, hpriority,
    hcores⟩

/-- Two submits with two tasks each that may run on core 0 only; the first has a task in flight. -/
def sharedCore : List (Act Unit) :=
  [.enqueue { twoLanes 2 ⟨0, 2⟩ ⟨0, 0⟩ with coreMask := 1 } [plainTask, plainTask] 0 () 0,
    .enqueue { twoLanes 2 ⟨0, 2⟩ ⟨0, 0⟩ with coreMask := 1 } [plainTask, plainTask] 0 () 0, .decide, .launch 0]

/-- The core is given to the next submit in line, twice. -/
def twoTurns : List (Act Unit) :=
  [.wake false, .decide, .launch 0, .harvest [completesOn 0], .wake false, .decide]

theorem round_robin_shared : ∃ (y₀ y₁ y : Sys Unit) (since : List Event), (scheduler Unit).run sharedCore = some y₀ ∧
    y₀.step (.harvest [completesOn 0]) = some y₁ ∧ (scheduler Unit).runFrom y₁ twoTurns = some y ∧
    y.hist = y₁.hist ++ since ∧ 1 ∈ reservedIds since ∧ ∃ e ∈ eventsOf 2 since, e.Yields := by
  obtain ⟨y₀, y₁, y, hrun, hs, hlater, hfit, hbefore, hres⟩ := Machine.exists_step_run (M := scheduler Unit) sharedCore
    (.harvest [completesOn 0]) twoTurns
    (p := fun y₀ y₁ y => y.IdsFit ∧ completesBefore y₀ 0 1 2 = true ∧ 1 ∈ reservedIds (y.hist.drop y₁.hist.length))
    (by decide +kernel)
  obtain ⟨ta, tb, h⟩ := CompletesBefore.of_eval hbefore
  obtain ⟨since, hhist, hyield⟩ := @round_robin _ _ _ _ _ _ _ hrun [] [] _ _ hs _ _ h _ hlater hfit
  rw [hhist, List.drop_left] at hres
  exact ⟨y₀, y₁, y, since, hrun, hs, hlater, hhist, hres, hyield hres⟩

/-- When the ids have come round, submit 1 runs a task and waits again, and submit 2 has a task in flight. -/
def waitsBehindWrap : List (Act Unit) :=
  [.enqueue (twoLanes 3 ⟨0, 3⟩ ⟨0, 0⟩) [plainTask, plainTask, plainTask] 0 () 0,
    .enqueue (twoLanes 3 ⟨0, 3⟩ ⟨0, 0⟩) [plainTask, plainTask, plainTask] 0 () 0, .harvest [completesOn 1], .wake false,
    .decide, .launch 0, .decide, .launch 0, .harvest [completesOn 1], .wake false]

/-- The completion of an older submit with id 1 is recorded for the one that waits, which goes to the end. -/
def overtakenTurn : List (Act Unit) :=
  [.wake false, .harvest [completesOn 0], .wake false, .decide]

theorem round_robin_wrap : ∃ acts, ∃ (y₀ y₁ y : Sys Unit) (ta tb : RknpuQueueTask) (since : List Event),
    (scheduler Unit).run acts = some y₀ ∧ y₀.step (.harvest [completesOn 2]) = some y₁ ∧
    CompletesBefore y₀.state (completesOn 2).1 2 ta 1 tb ∧ (scheduler Unit).runFrom y₁ overtakenTurn = some y ∧
    y.hist = y₁.hist ++ since ∧ 2 ∈ reservedIds since ∧ ∀ e ∈ eventsOf 1 since, ¬ e.Yields := by
  obtain ⟨acts, pre, z, hrun, hbefore, hnext⟩ := exists_wrapped_run
    [.enqueue (twoLanes 1 ⟨0, 1⟩ ⟨0, 0⟩) [plainTask] 0 () 0, .decide, .launch 0] waitsBehindWrap
    (p := fun z => completesBefore z 2 2 1 = true ∧ ((z.step (.harvest [completesOn 2])).any fun y₁ =>
      ((scheduler Unit).runFrom y₁ overtakenTurn).any fun y => decide (
        y.hist = y₁.hist ++ y.hist.drop y₁.hist.length ∧ 2 ∈ reservedIds (y.hist.drop y₁.hist.length) ∧
        ∀ e ∈ eventsOf 1 (y.hist.drop y₁.hist.length), ¬ e.Yields)) = true) () (by decide +kernel)
  obtain ⟨ta, tb, h⟩ := CompletesBefore.of_eval hbefore
  obtain ⟨y₁, hs, hnext⟩ := (Option.any_eq_true _ _).mp hnext
  obtain ⟨y, hlater, hy⟩ := (Option.any_eq_true _ _).mp hnext
  obtain ⟨hhist, hres, hyield⟩ := of_decide_eq_true hy
  refine ⟨acts, z.after pre, y₁.after pre, y.after pre, ta, tb, _, hrun, ?_, h, ?_, ?_, hres, hyield⟩
  · rw [z.step_after, hs]
    rfl
  · rw [y₁.runFrom_after, hlater]
    rfl
  · rw [Sys.after, Sys.after, List.append_assoc, ← hhist]

end Rknpu.Service
