import Rknpu.Queue.Lemmas.Turns
import Rknpu.Service.Lemmas.Order
import Rknpu.Service.Theorems.Arbitration

/-!
# Fairness of the queues

Submits that have not started yet are started in the order of their arrival, and a submit with one lane waits for its
equals between two of its tasks. Both rest on the order of the Ready queues and on the first-match search.
-/

namespace Rknpu.Service

open Queue

variable {W : Type} {y y' : Sys W} {taskId : RknpuQueueTaskId}

/-! ## Reservations -/

/-- The submits of the reservations, in order. -/
def reservedIds (hist : List Event) : List RknpuQueueTaskId :=
  hist.filterMap fun
    | .submit id (.reserved _) => some id
    | _ => none

@[simp] theorem reservedIds_append (hist hist' : List Event) :
    reservedIds (hist ++ hist') = reservedIds hist ++ reservedIds hist' := List.filterMap_append ..

theorem mem_reservedIds {hist : List Event} :
    taskId ∈ reservedIds hist ↔ ∃ slot, .submit taskId (.reserved slot) ∈ hist := by
  simp only [reservedIds, List.mem_filterMap]
  constructor
  · rintro ⟨e, he, hid⟩
    split at hid
    · cases hid
      exact ⟨_, he⟩
    · cases hid
  · rintro ⟨slot, he⟩
    exact ⟨_, he, rfl⟩

theorem mem_reservedIds_iff {hist : List Event} :
    taskId ∈ reservedIds hist ↔ reservedSlots (eventsOf taskId hist) ≠ [] := by
  rw [mem_reservedIds]
  constructor
  · rintro ⟨slot, he⟩
    exact List.ne_nil_of_mem (List.mem_filterMap.mpr ⟨_, mem_eventsOf.mpr he, rfl⟩)
  · intro hne
    obtain ⟨slot, hmem⟩ := List.exists_mem_of_ne_nil _ hne
    obtain ⟨e, he, hslot⟩ := List.mem_filterMap.mp hmem
    split at hslot
    · exact ⟨_, mem_eventsOf.mp he⟩
    · cases hslot

theorem reservedSlots_eq_nil {hist : List Event} (h : taskId ∉ reservedIds hist) :
    reservedSlots (eventsOf taskId hist) = [] := by
  by_contra hne
  exact h (mem_reservedIds_iff.mpr hne)

/-- Only a decision reserves, and at most one task. -/
theorem Sys.reservedIds_step {a : Act W} (hs : y.step a = some y') :
    reservedIds y'.hist = reservedIds y.hist ∨
      ∃ setup, y.state.dispatchDecision.1 = some setup ∧
        reservedIds y'.hist = reservedIds y.hist ++ [setup.binding.taskId] := by
  by_cases hd : a = .decide
  · subst hd
    cases Sys.step_cases hs with
    | decide _ =>
        unfold Sys.decide
        split
        · exact .inl rfl
        · rename_i setup state he
          exact .inr ⟨setup, congrArg Prod.fst he, by simp [reservedIds]⟩
  · obtain ⟨evs, hhist, hevs⟩ := Sys.step_events hs
    have hnone : reservedIds evs = [] := by
      refine List.eq_nil_iff_forall_not_mem.mpr fun id hid => ?_
      obtain ⟨slot, hmem⟩ := mem_reservedIds.mp hid
      cases hevs _ hmem with
      | reserved => exact hd rfl
      | harvest h => cases h
      | wake h => cases h
    rw [hhist, reservedIds_append, hnone, List.append_nil]
    exact .inl rfl

/-- A bound submit was reserved. -/
theorem Sys.Inv.reserved_of_bound (h : y.Inv) {coreSlot : Nat} {binding : CoreRunBinding}
    (hcore : y.state.coreBinding[coreSlot]? = some binding) : binding.taskId ∈ reservedIds y.hist := by
  have hslot := slot_mem_inflightOf hcore
  by_cases hmem : binding.taskId ∈ enqueuedIds y.hist
  · obtain ⟨queued, timeNs, he⟩ := mem_enqueuedIds.mp hmem
    obtain ⟨_, ℓ, hreach, hagree⟩ := h.lives _ queued timeNs he
    refine mem_reservedIds_iff.mpr fun hnil => ?_
    have hbalance := hreach.balance
    rw [hnil] at hbalance
    have hin := hagree.inflight.mem_iff.mp hslot
    rw [(List.append_eq_nil_iff.mp (List.nil_perm.mp hbalance)).2] at hin
    cases hin
  · have hidle := ((h.unknown _ hmem).2 (.new 0 (.new .default []))).inflight
    rw [List.perm_nil.mp hidle] at hslot
    cases hslot

/-- A submit that has left does not come back. -/
theorem Sys.Inv.left_step (h : y.Inv) {a : Act W} (hfit : y'.IdsFit) (hs : y.step a = some y')
    (hmem : taskId ∈ enqueuedIds y.hist) (hgone : y.state.tasks[taskId]? = none) : y'.state.tasks[taskId]? = none := by
  obtain ⟨queued, timeNs, he⟩ := mem_enqueuedIds.mp hmem
  obtain ⟨_, ℓ, _, hagree⟩ := h.lives _ queued timeNs he
  obtain ⟨_, ℓ', _, hsteps, hagree', _⟩ := h.lives_step hfit hs hmem hagree
  rw [hagree'.tasks, if_neg (hsteps.left (hagree.not_live hgone))]

/-! ## The order of arrival -/

def neverReserved (hist : List Event) (taskId : RknpuQueueTaskId) : Bool := !(reservedIds hist).contains taskId

theorem neverReserved_eq_true_iff {hist : List Event} : neverReserved hist taskId = true ↔ taskId ∉ reservedIds hist := by
  simp [neverReserved]

/-- The submits that were never reserved stand in Ready in the order of their arrival. -/
def Sys.InOrder (y : Sys W) : Prop := y.state.ready.Follows (neverReserved y.hist) (enqueuedIds y.hist)

theorem Sys.inOrder_step {a : Act W} (h : y.InOrder) (hinv : y.Inv) (hq : y.state.Queued)
    (hs : y.step a = some y') : y'.InOrder := by
  obtain ⟨evs, hhist⟩ := Sys.step_hist hs
  have hkeep : ∀ id, neverReserved y'.hist id = true → neverReserved y.hist id = true := by
    intro id hid
    rw [neverReserved_eq_true_iff] at hid ⊢
    rw [← hhist, reservedIds_append] at hid
    exact fun hmem => hid (List.mem_append_left _ hmem)
  by_cases hne : ∀ submit tasks t0Ns waiter timeNs, a ≠ .enqueue submit tasks t0Ns waiter timeNs
  · have hready : y'.state.ready.Follows (neverReserved y.hist) (enqueuedIds y.hist) := by
      refine Sys.follows_step hs hq h (fun coreSlot binding hcore => .inl ?_) hne
      simpa [neverReserved] using hinv.reserved_of_bound hcore
    refine hready.mono hkeep ?_
    rw [← hhist, enqueuedIds_append]
    exact List.sublist_append_left _ _
  · push Not at hne
    obtain ⟨submit, tasks, t0Ns, waiter, timeNs, rfl⟩ := hne
    cases Sys.step_cases hs
    have hids : enqueuedIds (y.enqueue (queuedSubmit submit tasks t0Ns) waiter timeNs).hist =
        enqueuedIds y.hist ++ [y.nextQueueTaskId] := enqueuedIds_append ..
    unfold Sys.InOrder
    rw [hids]
    exact (h.push_last _ y.nextQueueTaskId).mono hkeep (.refl _)

theorem Sys.inOrder_of_run {acts : List (Act W)} (hrun : (scheduler W).run acts = some y) (hfit : y.IdsFit) :
    y.InOrder := by
  refine Machine.run_induction (M := scheduler W) (P := fun _ y => y.IdsFit → y.InOrder) ?_ ?_ hrun hfit
  · exact fun _ => .empty
  · intro _ y a y' hrun ih hs hfit'
    have hfit := hfit'.of_step hs
    exact Sys.inOrder_step (ih hfit) (Sys.inv_of_run hrun hfit) (Sys.queued_of_run hrun) hs

/-! ## The first match -/

namespace NpuSchedulerState

variable {s : NpuSchedulerState W} {setup : DispatchSetup}

theorem Consistent.decision_live (h : s.Consistent) (hdec : s.dispatchDecision.1 = some setup) :
    ∃ t, s.tasks[setup.binding.taskId]? = some t := by
  have hpolicy := h.policy
  generalize s.dispatchDecision = r at hpolicy hdec
  cases hpolicy with
  | nothing _ => cases hdec
  | running _ hfirst _ _ _ => cases hdec; exact ⟨_, hfirst.eligible.live⟩
  | ready _ _ hfirst _ _ _ => cases hdec; exact ⟨_, hfirst.eligible.live⟩

/-- A submit that runs nothing is found in Ready, and what could have been found in its place stands behind it. -/
theorem Consistent.found_first (h : s.Consistent) (hdec : s.dispatchDecision.1 = some setup) {t t' : RknpuQueueTask}
    (ht : s.tasks[setup.binding.taskId]? = some t) (hidle : t.hasRunningTasks = false)
    (hne : taskId ≠ setup.binding.taskId) (ht' : s.tasks[taskId]? = some t') (hidle' : t'.hasRunningTasks = false)
    (hdisp : t'.hasDispatchableTask = true) (hcores : t.submitMeta.allowedCores ⊆ t'.submitMeta.allowedCores)
    (hpriority : t'.submitMeta.priority ≤ t.submitMeta.priority) :
    ∃ before after, s.ready[t.submitMeta.priority]? = some (before ++ setup.binding.taskId :: after) ∧
      taskId ∈ after := by
  have hpolicy := h.policy
  generalize s.dispatchDecision = r at hpolicy hdec
  cases hpolicy with
  | nothing _ => cases hdec
  | running _ hfirst _ _ _ =>
      cases hdec
      obtain ⟨before, after, hqueue, _⟩ := hfirst.position
      obtain ⟨t₀, ht₀, _, hrun⟩ := ((h.filed setup.binding.taskId).running _).mp ⟨_, hqueue, by simp⟩
      cases ht.symm.trans ht₀
      rw [hidle] at hrun
      cases hrun
  | ready _ hcore hfirst _ _ _ =>
      cases hdec
      cases ht.symm.trans hfirst.eligible.live
      have hallows : t'.allowsCore setup.coreSlot = true := by
        have hlt : setup.coreSlot < npuMaxCores := List.mem_range.mp (List.mem_filter.mp hcore.idle).1
        exact (mem_allowedCores.mp (hcores (mem_allowedCores.mpr ⟨hlt, hfirst.eligible.allows⟩))).2
      have heligible : s.Eligible setup.coreSlot taskId t' := ⟨ht', hallows, hdisp⟩
      have hmem := (h.filed taskId).queued t' ht' hidle' hdisp
      have hequal : t'.submitMeta.priority = t.submitMeta.priority :=
        Int32.le_antisymm hpriority (hfirst.priority taskId t' ⟨_, hmem⟩ heligible)
      obtain ⟨before, after, hqueue, hbefore⟩ := hfirst.position
      obtain ⟨queue, hq, hid⟩ := hmem
      rw [hequal, hqueue, Option.some.injEq] at hq
      subst hq
      refine ⟨before, after, hqueue, ?_⟩
      rcases List.mem_append.mp hid with hid | hid
      · exact (hbefore taskId hid t' heligible).elim
      · exact (List.mem_cons.mp hid).resolve_left hne

end NpuSchedulerState

/-! ## No overtaking -/

/-- `a` arrived before `b`, has a priority that is at least as good, and may run wherever `b` may. -/
structure Outranks (hist : List Event) (a : RknpuQueueTaskId) (qa : RknpuQueuedSubmit) (b : RknpuQueueTaskId)
    (qb : RknpuQueuedSubmit) : Prop where
  first : ∃ timeNs, .enqueued a qa timeNs ∈ hist
  second : ∃ timeNs, .enqueued b qb timeNs ∈ hist
  arrival : [a, b].Sublist (enqueuedIds hist)
  priority : qa.submitMeta.priority ≤ qb.submitMeta.priority
  cores : qb.submitMeta.allowedCores ⊆ qa.submitMeta.allowedCores

/-- The position of the first reservation of a submit among all reservations. -/
def firstReservation (taskId : RknpuQueueTaskId) (hist : List Event) : Nat := (reservedIds hist).idxOf taskId

section

variable {a b : RknpuQueueTaskId} {qa qb : RknpuQueuedSubmit}

/-- It outranks the other as soon as the other has arrived. -/
theorem Outranks.of_prefix (h : Outranks y.hist a qa b qb) (hinv : y.Inv) {hist : List Event}
    (hpre : hist <+: y.hist) (hb : b ∈ enqueuedIds hist) : Outranks hist a qa b qb := by
  obtain ⟨rest, hrest⟩ := hpre
  have hsub : ∀ {e}, e ∈ hist → e ∈ y.hist := fun he => hrest ▸ List.mem_append_left rest he
  have harrival : [a, b].Sublist (enqueuedIds hist) := by
    have hids : enqueuedIds y.hist = enqueuedIds hist ++ enqueuedIds rest := by rw [← hrest, enqueuedIds_append]
    have hnot : b ∉ enqueuedIds rest := (List.disjoint_of_nodup_append (hids ▸ hinv.nodup)) hb
    obtain ⟨l₁, l₂, hl, h₁, h₂⟩ := List.sublist_append_iff.mp (hids ▸ h.arrival)
    cases l₂ using List.reverseRecOn with
    | nil => rwa [hl, List.append_nil]
    | append_singleton l₂ x =>
        rw [← List.append_assoc] at hl
        have hlast : [b] = [x] := (List.append_inj' (show [a] ++ [b] = (l₁ ++ l₂) ++ [x] from hl) rfl).2
        cases hlast
        exact (hnot (h₂.subset (by simp))).elim
  refine ⟨?_, ?_, harrival, h.priority, h.cores⟩
  · obtain ⟨qa', ta, he⟩ := mem_enqueuedIds.mp (harrival.subset (List.mem_cons_self))
    obtain ⟨_, he'⟩ := h.first
    exact ⟨ta, (hinv.enqueued_unique he' (hsub he)).1 ▸ he⟩
  · obtain ⟨qb', tb, he⟩ := mem_enqueuedIds.mp hb
    obtain ⟨_, he'⟩ := h.second
    exact ⟨tb, (hinv.enqueued_unique he' (hsub he)).1 ▸ he⟩

/-- A live submit that was never reserved is as it was enqueued. -/
theorem Sys.Inv.record_of_unreserved (h : y.Inv) {queued : RknpuQueuedSubmit} {timeNs : UInt64}
    (he : .enqueued taskId queued timeNs ∈ y.hist) (hno : taskId ∉ reservedIds y.hist) {t : RknpuQueueTask}
    (ht : y.state.tasks[taskId]? = some t) : ∃ timeNs, t = (RknpuQueueTask.new taskId queued).markEnqueued timeNs := by
  obtain ⟨queued', _, fl, he', _, hreach, _⟩ := h.life ht
  obtain ⟨rfl, _⟩ := h.enqueued_unique he he'
  obtain ⟨_, _, hstart⟩ := hreach.fresh.resolve_right fun hr => hr.1 (reservedSlots_eq_nil hno)
  obtain ⟨timeNs', heq⟩ := hstart rfl
  exact ⟨timeNs', congrArg Life.task heq⟩

/-- When the second of two submits is reserved, the first has been reserved or is not there any more. -/
theorem Sys.Inv.first_reserved (h : y.Inv) (hord : y.InOrder) (hrank : Outranks y.hist a qa b qb)
    (hdisp : (RknpuQueueTask.new a qa).hasDispatchableTask = true) {setup : DispatchSetup}
    (hdec : y.state.dispatchDecision.1 = some setup) (hid : setup.binding.taskId = b) (hb : b ∉ reservedIds y.hist)
    (ha : a ∉ reservedIds y.hist) : y.state.tasks[a]? = none := by
  by_contra hlive
  obtain ⟨t', ht'⟩ := Option.ne_none_iff_exists'.mp hlive
  obtain ⟨t, ht⟩ := h.queues.decision_live hdec
  obtain ⟨_, hea⟩ := hrank.first
  obtain ⟨_, heb⟩ := hrank.second
  obtain ⟨_, rfl⟩ := h.record_of_unreserved hea ha ht'
  subst hid
  obtain ⟨_, rfl⟩ := h.record_of_unreserved heb hb ht
  have hne : a ≠ setup.binding.taskId := by
    rintro rfl
    exact absurd (hrank.arrival.nodup h.nodup) (by simp)
  obtain ⟨before, after, hqueue, hafter⟩ := h.queues.found_first hdec ht (RknpuQueueTask.hasRunningTasks_new _ _ _) hne
    ht' (RknpuQueueTask.hasRunningTasks_new _ _ _) hdisp hrank.cores hrank.priority
  refine PrioBuckets.not_sublist_swap h.nodup hrank.arrival (hord.pair_sublist hqueue hafter ?_ ?_)
  · exact neverReserved_eq_true_iff.mpr hb
  · exact neverReserved_eq_true_iff.mpr ha

/-- The submit has left without a reservation. -/
structure Sys.LeftUnreserved (y : Sys W) (taskId : RknpuQueueTaskId) : Prop where
  arrived : taskId ∈ enqueuedIds y.hist
  unreserved : taskId ∉ reservedIds y.hist
  gone : y.state.tasks[taskId]? = none

theorem Sys.LeftUnreserved.step (h : y.LeftUnreserved taskId) (hinv : y.Inv) {act : Act W} (hfit : y'.IdsFit)
    (hs : y.step act = some y') : y'.LeftUnreserved taskId := by
  refine ⟨?_, ?_, hinv.left_step hfit hs h.arrived h.gone⟩
  · obtain ⟨evs, hhist⟩ := Sys.step_hist hs
    rw [← hhist, enqueuedIds_append]
    exact List.mem_append_left _ h.arrived
  · rcases Sys.reservedIds_step hs with he | ⟨setup, hdec, he⟩
    · rw [he]
      exact h.unreserved
    · -- Only a live submit is reserved.
      obtain ⟨t, ht⟩ := hinv.queues.decision_live hdec
      rw [he]
      simp only [List.mem_append, List.mem_singleton, not_or]
      refine ⟨h.unreserved, ?_⟩
      rintro rfl
      cases h.gone.symm.trans ht

/-- The first of two submits is ahead, or it will never be reserved. -/
def Sys.Ahead (y : Sys W) (a b : RknpuQueueTaskId) : Prop :=
  (a ∈ reservedIds y.hist ∧ firstReservation a y.hist < firstReservation b y.hist) ∨ y.LeftUnreserved a

theorem firstReservation_append {hist hist' : List Event} (h : taskId ∈ reservedIds hist) :
    firstReservation taskId (hist ++ hist') = firstReservation taskId hist := by
  rw [firstReservation, reservedIds_append, List.idxOf_append_of_mem h]
  rfl

theorem Sys.Ahead.step (h : y.Ahead a b) (hinv : y.Inv) (hb : b ∈ reservedIds y.hist) {act : Act W}
    (hfit : y'.IdsFit) (hs : y.step act = some y') : y'.Ahead a b := by
  refine h.imp (fun ⟨ha, hlt⟩ => ?_) fun hleft => hleft.step hinv hfit hs
  obtain ⟨evs, hhist⟩ := Sys.step_hist hs
  rw [← hhist, firstReservation_append ha, firstReservation_append hb, reservedIds_append]
  exact ⟨List.mem_append_left _ ha, hlt⟩

/-- The first submit is ahead when the second is reserved for the first time. -/
theorem Sys.Inv.ahead_of_first (h : y.Inv) (hord : y.InOrder) (hrank : Outranks y.hist a qa b qb)
    (hdisp : (RknpuQueueTask.new a qa).hasDispatchableTask = true) {setup : DispatchSetup}
    (hdec : y.state.dispatchDecision.1 = some setup) (hid : setup.binding.taskId = b) (hb : b ∉ reservedIds y.hist)
    {act : Act W} (hfit : y'.IdsFit) (hs : y.step act = some y')
    (he : reservedIds y'.hist = reservedIds y.hist ++ [setup.binding.taskId]) : y'.Ahead a b := by
  by_cases ha : a ∈ reservedIds y.hist
  · left
    rw [firstReservation, firstReservation, he, List.idxOf_append_of_mem ha, List.idxOf_append_of_notMem hb]
    exact ⟨List.mem_append_left _ ha, Nat.lt_add_right _ (List.idxOf_lt_length_of_mem ha)⟩
  · have hleft : y.LeftUnreserved a :=
      ⟨hrank.arrival.subset List.mem_cons_self, ha, h.first_reserved hord hrank hdisp hdec hid hb ha⟩
    exact .inr (hleft.step h hfit hs)

end

/-- No overtaking at the start: of two submits that were both reserved, the one that outranks the other was reserved
first, as long as no id is handed out twice. -/
theorem no_overtaking {acts : List (Act W)} (hrun : (scheduler W).run acts = some y) (hfit : y.IdsFit)
    {a b : RknpuQueueTaskId} {qa qb : RknpuQueuedSubmit} (hrank : Outranks y.hist a qa b qb)
    (ha : a ∈ reservedIds y.hist) (hb : b ∈ reservedIds y.hist) :
    firstReservation a y.hist < firstReservation b y.hist := by
  have hinv := Sys.inv_of_run hrun hfit
  have hdisp : (RknpuQueueTask.new a qa).hasDispatchableTask = true := by
    obtain ⟨_, he⟩ := hrank.first
    obtain ⟨_, ℓ, hreach, _⟩ := hinv.lives a qa _ he
    exact (hreach.fresh.resolve_left fun hf => mem_reservedIds_iff.mp ha hf.1).2
  have hahead : ∀ {acts : List (Act W)} {z : Sys W}, (scheduler W).run acts = some z → z.hist <+: y.hist →
      b ∈ reservedIds z.hist → z.Ahead a b := by
    refine Machine.run_induction (M := scheduler W)
      (P := fun _ z => z.hist <+: y.hist → b ∈ reservedIds z.hist → z.Ahead a b) (fun _ hb => nomatch hb) ?_
    intro _ z act z' hrun ih hs hpre hb'
    have hfit' : z'.IdsFit := hfit.of_prefix hpre
    have hfitz := hfit'.of_step hs
    have hinvz := Sys.inv_of_run hrun hfitz
    have hprez : z.hist <+: y.hist := (Sys.step_hist hs).trans hpre
    by_cases hbz : b ∈ reservedIds z.hist
    · exact (ih hprez hbz).step hinvz hbz hfit' hs
    · -- The second submit is reserved in this step for the first time.
      rcases Sys.reservedIds_step hs with he | ⟨setup, hdec, he⟩
      · exact (hbz (he ▸ hb')).elim
      · have hid : setup.binding.taskId = b := by
          rw [he] at hb'
          simpa [hbz, eq_comm] using hb'
        obtain ⟨t, ht⟩ := hinvz.queues.decision_live hdec
        have hrankz := hrank.of_prefix hinv hprez (hinvz.enqueued_of_live (by rw [← hid, ht]; exact nofun))
        exact hinvz.ahead_of_first (Sys.inOrder_of_run hrun hfitz) hrankz hdisp hdec hid hbz hfit' hs he
  rcases hahead hrun (List.prefix_refl _) hb with ⟨_, hlt⟩ | hleft
  · exact hlt
  · exact (hleft.unreserved ha).elim

/-- Two submits arrive and are started on two cores. -/
def twoStarted : List (Act Unit) :=
  [.enqueue (twoLanes 2 ⟨0, 2⟩ ⟨0, 0⟩) [plainTask, plainTask] 0 () 0,
    .enqueue (twoLanes 1 ⟨0, 1⟩ ⟨0, 0⟩) [plainTask] 0 () 0, .decide, .launch 0, .decide]

theorem no_overtaking_two : ∃ y : Sys Unit, (scheduler Unit).run twoStarted = some y ∧
    firstReservation 1 y.hist < firstReservation 2 y.hist := by
  obtain ⟨y, hrun, h⟩ := (Option.any_eq_true (fun y : Sys Unit => decide (y.IdsFit ∧
    .enqueued 1 (queuedSubmit (twoLanes 2 ⟨0, 2⟩ ⟨0, 0⟩) [plainTask, plainTask] 0) 0 ∈ y.hist ∧
    .enqueued 2 (queuedSubmit (twoLanes 1 ⟨0, 1⟩ ⟨0, 0⟩) [plainTask] 0) 0 ∈ y.hist ∧
    [1, 2].Sublist (enqueuedIds y.hist) ∧ 1 ∈ reservedIds y.hist ∧ 2 ∈ reservedIds y.hist)) _).mp
    (show ((scheduler Unit).run twoStarted).any _ = true by decide +kernel)
  obtain ⟨hfit, h₁, h₂, hids, hr₁, hr₂⟩ := of_decide_eq_true h
  exact ⟨y, hrun, no_overtaking hrun hfit ⟨⟨0, h₁⟩, ⟨0, h₂⟩, hids, by decide, by decide⟩ hr₁ hr₂⟩

/-- An older submit with the id of the first one is still in flight when the ids have come round. Its completion is
recorded for the first submit, which goes to the end of the queue. -/
def overtakenRun : List (Act Unit) :=
  [.enqueue (twoLanes 2 ⟨0, 2⟩ ⟨0, 0⟩) [plainTask, plainTask] 0 () 0,
    .enqueue (twoLanes 1 ⟨0, 1⟩ ⟨0, 0⟩) [plainTask] 0 () 0, .harvest [(⟨0, 1, 0⟩, 0)], .wake false, .decide, .launch 0,
    .decide]

theorem overtaking_on_wrap : ∃ acts, ∃ (y : Sys Unit) (pre post : List Event) (qa qb : RknpuQueuedSubmit),
    (scheduler Unit).run acts = some y ∧ y.hist = pre ++ post ∧ Outranks post 1 qa 2 qb ∧ 1 ∈ reservedIds post ∧
    2 ∈ reservedIds post ∧ ¬ firstReservation 1 post < firstReservation 2 post := by
  obtain ⟨acts, pre, z, hrun, h₁, h₂, hids, hr₁, hr₂, hlt⟩ := exists_wrapped_run
    [.enqueue (twoLanes 1 ⟨0, 1⟩ ⟨0, 0⟩) [plainTask] 0 () 0, .decide, .launch 0] overtakenRun
    (p := fun z =>
      .enqueued 1 (queuedSubmit (twoLanes 2 ⟨0, 2⟩ ⟨0, 0⟩) [plainTask, plainTask] 0) 0 ∈ z.hist ∧
      .enqueued 2 (queuedSubmit (twoLanes 1 ⟨0, 1⟩ ⟨0, 0⟩) [plainTask] 0) 0 ∈ z.hist ∧
      [1, 2].Sublist (enqueuedIds z.hist) ∧ 1 ∈ reservedIds z.hist ∧ 2 ∈ reservedIds z.hist ∧
      ¬ firstReservation 1 z.hist < firstReservation 2 z.hist) () (by decide +kernel)
  exact ⟨acts, z.after pre, pre, z.hist, _, _, hrun, rfl, ⟨⟨0, h₁⟩, ⟨0, h₂⟩, hids, by decide, by decide⟩, hr₁, hr₂, hlt⟩

end Rknpu.Service
