import Rknpu.Queue.Lemmas.LifeInv
import Rknpu.Service.Lemmas.Events

/-!
# Locked sections as events of a submit's life

`Agrees` relates the scheduler state to the life of one submit: the map that owns its record, and the
cores bound to it. `Tracks` says that a section with a given list of events moves every submit along its
own part of these events. The sections of `Service/State.lean` are tracked one by one.
-/

namespace Rknpu.Service

open Queue

variable {W : Type}

/-! ## Bound cores -/

section

variable {coreBinding : CoreMap} {coreSlot : Nat} {binding : CoreRunBinding} {taskId : RknpuQueueTaskId}

theorem mem_inflightOf {slot : Slot} : slot ∈ inflightOf coreBinding taskId ↔
    ∃ b, coreBinding[slot.core]? = some b ∧ b.taskId = taskId ∧ b.slot slot.core = slot := by
  simp only [inflightOf, List.mem_filterMap, Prod.exists, Std.ExtTreeMap.mem_toList_iff_getElem?_eq_some,
    Option.ite_none_right_eq_some, Option.some.injEq]
  constructor
  · rintro ⟨c, b, hget, hid, rfl⟩
    exact ⟨b, hget, hid, rfl⟩
  · rintro ⟨b, hget, hid, heq⟩
    exact ⟨slot.core, b, hget, hid, heq⟩

theorem slot_mem_inflightOf (h : coreBinding[coreSlot]? = some binding) :
    binding.slot coreSlot ∈ inflightOf coreBinding binding.taskId :=
  mem_inflightOf.mpr ⟨binding, h, rfl, rfl⟩

theorem inflightOf_insert_self (h : coreBinding[coreSlot]? = none) :
    (inflightOf (coreBinding.insert coreSlot binding) binding.taskId).Perm
      (binding.slot coreSlot :: inflightOf coreBinding binding.taskId) := by
  have hperm := (Std.ExtTreeMap.toList_insert_perm binding h).filterMap fun e =>
    if e.2.taskId = binding.taskId then some (e.2.slot e.1) else none
  simpa [inflightOf] using hperm

theorem inflightOf_insert_of_ne (h : coreBinding[coreSlot]? = none) (hid : binding.taskId ≠ taskId) :
    (inflightOf (coreBinding.insert coreSlot binding) taskId).Perm (inflightOf coreBinding taskId) := by
  have hperm := (Std.ExtTreeMap.toList_insert_perm binding h).filterMap fun e =>
    if e.2.taskId = taskId then some (e.2.slot e.1) else none
  simpa [inflightOf, hid] using hperm

theorem inflightOf_erase_self (h : coreBinding[coreSlot]? = some binding) :
    (inflightOf coreBinding binding.taskId).Perm
      (binding.slot coreSlot :: inflightOf (coreBinding.erase coreSlot) binding.taskId) := by
  have hperm := (Std.ExtTreeMap.toList_erase_perm h).filterMap fun e =>
    if e.2.taskId = binding.taskId then some (e.2.slot e.1) else none
  simpa [inflightOf] using hperm

theorem inflightOf_erase_of_ne (h : coreBinding[coreSlot]? = some binding) (hid : binding.taskId ≠ taskId) :
    (inflightOf (coreBinding.erase coreSlot) taskId).Perm (inflightOf coreBinding taskId) := by
  have hperm := (Std.ExtTreeMap.toList_erase_perm h).filterMap fun e =>
    if e.2.taskId = taskId then some (e.2.slot e.1) else none
  simpa [inflightOf, hid] using hperm.symm

end

/-! ## Agreement with a life -/

/-- The scheduler state shows the submit as its life has it. -/
structure Agrees (s : NpuSchedulerState W) (taskId : RknpuQueueTaskId) (ℓ : Life) : Prop where
  tasks : s.tasks[taskId]? = if ℓ.place = .live then some ℓ.task else none
  complete : s.complete[taskId]? = if ℓ.place = .complete then some ℓ.task else none
  inflight : (inflightOf s.coreBinding taskId).Perm ℓ.inflight

/-- A section with these events moves every submit along its own events. -/
def Tracks (s : NpuSchedulerState W) (evs : List Event) (s' : NpuSchedulerState W) : Prop :=
  ∀ taskId ℓ, Agrees s taskId ℓ → ∃ ℓ', Life.Steps ℓ (eventsOf taskId evs) ℓ' ∧ Agrees s' taskId ℓ'

variable {s s' s'' : NpuSchedulerState W} {taskId : RknpuQueueTaskId} {ℓ : Life} {evs evs' : List Event}

theorem Tracks.trans (h : Tracks s evs s') (h' : Tracks s' evs' s'') : Tracks s (evs ++ evs') s'' := by
  intro id ℓ hagree
  obtain ⟨ℓ₁, hsteps, hagree₁⟩ := h id ℓ hagree
  obtain ⟨ℓ₂, hsteps', hagree₂⟩ := h' id ℓ₁ hagree₁
  exact ⟨ℓ₂, by simpa using hsteps.append hsteps', hagree₂⟩

theorem Agrees.live (h : Agrees s taskId ℓ) {t : RknpuQueueTask} (ht : s.tasks[taskId]? = some t) :
    ℓ.place = .live ∧ ℓ.task = t := by
  have := h.tasks
  rw [ht] at this
  split at this
  · rename_i hl
    exact ⟨hl, (Option.some.inj this).symm⟩
  · cases this

theorem Agrees.not_live (h : Agrees s taskId ℓ) (ht : s.tasks[taskId]? = none) : ℓ.place ≠ .live := by
  have := h.tasks
  rw [ht] at this
  split at this
  · cases this
  · assumption

theorem Agrees.done (h : Agrees s taskId ℓ) {t : RknpuQueueTask} (ht : s.complete[taskId]? = some t) :
    ℓ.place = .complete ∧ ℓ.task = t := by
  have := h.complete
  rw [ht] at this
  split at this
  · rename_i hl
    exact ⟨hl, (Option.some.inj this).symm⟩
  · cases this

theorem Agrees.not_done (h : Agrees s taskId ℓ) (ht : s.complete[taskId]? = none) : ℓ.place ≠ .complete := by
  have := h.complete
  rw [ht] at this
  split at this
  · cases this
  · assumption

/-- A section that leaves the submit alone. -/
theorem Agrees.of_frame (h : Agrees s taskId ℓ) (htasks : s'.tasks[taskId]? = s.tasks[taskId]?)
    (hcomplete : s'.complete[taskId]? = s.complete[taskId]?)
    (hinflight : (inflightOf s'.coreBinding taskId).Perm (inflightOf s.coreBinding taskId)) :
    Agrees s' taskId ℓ :=
  ⟨htasks.trans h.tasks, hcomplete.trans h.complete, hinflight.trans h.inflight⟩

/-- Other submits are untouched, and the submit concerned takes one step. -/
theorem Tracks.of_step {e : SubmitEvent}
    (hothers : ∀ id, id ≠ taskId → s'.tasks[id]? = s.tasks[id]? ∧ s'.complete[id]? = s.complete[id]? ∧
      (inflightOf s'.coreBinding id).Perm (inflightOf s.coreBinding id))
    (hown : ∀ ℓ, Agrees s taskId ℓ → ∃ ℓ', Life.Step ℓ e ℓ' ∧ Agrees s' taskId ℓ') :
    Tracks s [.submit taskId e] s' := by
  intro id ℓ hagree
  by_cases hid : id = taskId
  · subst hid
    obtain ⟨ℓ', hstep, hagree'⟩ := hown ℓ hagree
    exact ⟨ℓ', by rw [eventsOf_submit_self]; exact .cons hstep .nil, hagree'⟩
  · obtain ⟨ht, hc, hi⟩ := hothers id hid
    exact ⟨ℓ, by rw [eventsOf_submit_of_ne (Ne.symm hid)]; exact .nil, hagree.of_frame ht hc hi⟩

/-! ## The locked sections -/

theorem tracks_decided {r : Option DispatchSetup × NpuSchedulerState W} (h : s.Decided r) :
    Tracks s (r.1.toList.map fun setup =>
      .submit setup.binding.taskId (.reserved (setup.binding.slot setup.coreSlot))) r.2 := by
  -- Both dispatching cases bind the candidate to an idle core and touch no other record.
  have hreserve : ∀ {s' : NpuSchedulerState W} {buckets : Buckets} {coreSlot : Nat} {priority : Int32}
      {binding : CoreRunBinding} {task : RknpuQueueTask} {taskDesc : RknpuTask},
      s'.tasks = s.tasks → s'.complete = s.complete → s'.coreBinding = s.coreBinding →
      coreSlot ∈ s.idleCores → s.Candidate buckets coreSlot priority binding task taskDesc →
      Tracks s [.submit binding.taskId (.reserved (binding.slot coreSlot))]
        (s'.reserve coreSlot binding task) := by
    intro s' buckets coreSlot priority binding task taskDesc htasks hcomplete hcores hidle hcand
    obtain ⟨hlt, hfree⟩ := NpuSchedulerState.mem_idleCores.mp hidle
    refine Tracks.of_step ?_ ?_
    · intro id hid
      refine ⟨?_, by simp [NpuSchedulerState.reserve, hcomplete], ?_⟩
      · simp only [NpuSchedulerState.reserve, htasks]
        exact Std.ExtTreeMap.getElem?_insert_of_ne (Ne.symm hid)
      · simp only [NpuSchedulerState.reserve, hcores]
        exact inflightOf_insert_of_ne hfree (Ne.symm hid)
    · intro ℓ hagree
      obtain ⟨hlive, htask⟩ := hagree.live hcand.live
      obtain ⟨t, p, fl⟩ := ℓ
      simp only at hlive htask
      subst hlive htask
      have hcore : coreSlot ∉ fl.map Slot.core := by
        intro hmem
        obtain ⟨slot, hslot, hcore⟩ := List.mem_map.mp hmem
        obtain ⟨b, hb, _⟩ := mem_inflightOf.mp (hagree.inflight.mem_iff.mpr hslot)
        rw [hcore, hfree] at hb
        cases hb
      have hstep : Life.Step ⟨t, .live, fl⟩ (.reserved (binding.slot coreSlot)) _ :=
        .reserved hlt hcore hcand.allows hcand.next
      refine ⟨_, hstep, ?_, ?_, ?_⟩
      · simp [NpuSchedulerState.reserve]
      · simpa [NpuSchedulerState.reserve, hcomplete] using hagree.complete
      · simp only [NpuSchedulerState.reserve, hcores]
        exact (inflightOf_insert_self hfree).trans (hagree.inflight.cons _)
  cases h with
  | nothing _ => exact fun id ℓ hagree => ⟨ℓ, .nil, hagree⟩
  | continued hidle _ hcand => exact hreserve rfl rfl rfl hidle hcand
  | promoted hidle _ _ hcand => exact hreserve rfl rfl rfl hidle hcand

theorem tracks_markDispatched {coreSlot : Nat} {binding : CoreRunBinding}
    (hbound : s.coreBinding[coreSlot]? = some binding) (hlive : s.tasks[binding.taskId]? ≠ none)
    (timeNs : UInt64) :
    Tracks s [.submit binding.taskId (.launched (binding.slot coreSlot) timeNs)]
      (s.markDispatched binding.taskId timeNs) := by
  refine Tracks.of_step ?_ ?_
  · intro id hid
    exact ⟨Std.ExtTreeMap.getElem?_modify_of_ne (Ne.symm hid), rfl, .refl _⟩
  · intro ℓ hagree
    obtain ⟨t, ht⟩ := Option.ne_none_iff_exists'.mp hlive
    obtain ⟨hplace, htask⟩ := hagree.live ht
    obtain ⟨t', p, fl⟩ := ℓ
    simp only at hplace htask
    subst hplace htask
    have hmem : binding.slot coreSlot ∈ fl :=
      hagree.inflight.mem_iff.mp (mem_inflightOf.mpr ⟨binding, hbound, rfl, rfl⟩)
    refine ⟨_, .launched hmem, ?_, hagree.complete, hagree.inflight⟩
    simp [NpuSchedulerState.markDispatched, ht]

/-- Taking a binding away, for the submit it belongs to. -/
theorem Agrees.perm_erase (h : Agrees s taskId ℓ) {coreSlot : Nat} {binding : CoreRunBinding}
    (hbound : s.coreBinding[coreSlot]? = some binding) (hid : binding.taskId = taskId) :
    binding.slot coreSlot ∈ ℓ.inflight ∧
      (inflightOf (s.coreBinding.erase coreSlot) taskId).Perm (ℓ.inflight.erase (binding.slot coreSlot)) := by
  subst hid
  have hperm := h.inflight.symm.trans (inflightOf_erase_self hbound)
  refine ⟨hperm.mem_iff.mpr (List.mem_cons_self ..), ?_⟩
  have := hperm.erase (binding.slot coreSlot)
  rw [List.erase_cons_head] at this
  exact this.symm

/-- After `reclassify_task` the owner of the record is the settled place. -/
theorem agrees_reclassifyTask {t : RknpuQueueTask} {fl : List Slot} (ht : s.tasks[taskId]? = some t)
    (hc : s.complete[taskId]? = none) (hfl : (inflightOf s.coreBinding taskId).Perm fl) :
    Agrees (s.reclassifyTask taskId).2 taskId ⟨t, settledPlace t, fl⟩ := by
  obtain ⟨_, htasks, hcomplete⟩ := NpuSchedulerState.reclassifyTask_self ht
  refine ⟨?_, ?_, ?_⟩
  · rw [htasks, settledPlace]
    cases t.isTerminal <;> rfl
  · rw [hcomplete, settledPlace, hc]
    cases t.isTerminal <;> rfl
  · rw [(NpuSchedulerState.reclassifyTask_frame s taskId).1]
    exact hfl

theorem Agrees.complete_eq_none (h : Agrees s taskId ℓ) (hl : ℓ.place = .live) : s.complete[taskId]? = none := by
  rw [h.complete, hl]
  rfl

theorem tracks_failDispatch {coreSlot : Nat} {binding : CoreRunBinding}
    (hbound : s.coreBinding[coreSlot]? = some binding) (hlive : s.tasks[binding.taskId]? ≠ none)
    (err : RknpuError) :
    Tracks s [.submit binding.taskId (.failed (binding.slot coreSlot) err)]
      (s.failDispatch coreSlot binding err).2 := by
  unfold NpuSchedulerState.failDispatch
  dsimp only
  refine Tracks.of_step ?_ ?_
  · intro id hid
    have hothers := NpuSchedulerState.reclassifyTask_others (s := { s with
      coreBinding := s.coreBinding.erase coreSlot
      tasks := s.tasks.modify binding.taskId (·.failDispatch binding.laneSlot err) }) hid
    refine ⟨hothers.1.trans (Std.ExtTreeMap.getElem?_modify_of_ne (Ne.symm hid)), hothers.2, ?_⟩
    rw [(NpuSchedulerState.reclassifyTask_frame _ _).1]
    exact inflightOf_erase_of_ne hbound (Ne.symm hid)
  · intro ℓ hagree
    obtain ⟨t, ht⟩ := Option.ne_none_iff_exists'.mp hlive
    obtain ⟨hplace, htask⟩ := hagree.live ht
    obtain ⟨t', p, fl⟩ := ℓ
    simp only at hplace htask
    subst hplace htask
    obtain ⟨hmem, hperm⟩ := hagree.perm_erase hbound rfl
    refine ⟨_, .failed hmem, agrees_reclassifyTask ?_ (hagree.complete_eq_none rfl) hperm⟩
    rw [Std.ExtTreeMap.getElem?_modify_self, ht]
    rfl

/-- A completion of a live submit, as far as lookups show. -/
theorem harvestCompletion_live {completion : CoreCompletion} {binding : CoreRunBinding} {t : RknpuQueueTask}
    (hbound : s.coreBinding[completion.coreSlot.toNat]? = some binding)
    (ht : s.tasks[binding.taskId]? = some t) (hc : s.complete[binding.taskId]? = none) (timeNs : UInt64) :
    (∀ fl, (inflightOf (s.coreBinding.erase completion.coreSlot.toNat) binding.taskId).Perm fl →
      Agrees (s.harvestCompletion completion timeNs).2 binding.taskId
        ⟨t.harvestSlot (binding.slot completion.coreSlot.toNat) completion.observedIrqStatus timeNs,
          settledPlace (t.recordCompletion binding.laneSlot binding.taskIndex completion.observedIrqStatus), fl⟩) ∧
      (s.harvestCompletion completion timeNs).2.coreBinding = s.coreBinding.erase completion.coreSlot.toNat ∧
      ∀ id, id ≠ binding.taskId → (s.harvestCompletion completion timeNs).2.tasks[id]? = s.tasks[id]? ∧
        (s.harvestCompletion completion timeNs).2.complete[id]? = s.complete[id]? := by
  have hslot : t.harvestSlot (binding.slot completion.coreSlot.toNat) completion.observedIrqStatus timeNs =
      if (t.recordCompletion binding.laneSlot binding.taskIndex completion.observedIrqStatus).isTerminal then
        (t.recordCompletion binding.laneSlot binding.taskIndex completion.observedIrqStatus).markTerminal timeNs
      else t.recordCompletion binding.laneSlot binding.taskIndex completion.observedIrqStatus := rfl
  simp only [NpuSchedulerState.harvestCompletion, hbound, ht, hslot]
  generalize t.recordCompletion binding.laneSlot binding.taskIndex completion.observedIrqStatus = t₁
  generalize hs₁ : ({ s with
    coreBinding := s.coreBinding.erase completion.coreSlot.toNat
    tasks := s.tasks.insert binding.taskId t₁ } : NpuSchedulerState W) = s₁
  have ht₁ : s₁.tasks[binding.taskId]? = some t₁ := by
    rw [← hs₁]
    exact Std.ExtTreeMap.getElem?_insert_self
  have hcores : s₁.coreBinding = s.coreBinding.erase completion.coreSlot.toNat := by rw [← hs₁]
  have hc₁ : s₁.complete[binding.taskId]? = none := by
    rw [← hs₁]
    exact hc
  have hothers : ∀ id, id ≠ binding.taskId → (s₁.reclassifyTask binding.taskId).2.tasks[id]? = s.tasks[id]? ∧
      (s₁.reclassifyTask binding.taskId).2.complete[id]? = s.complete[id]? := by
    intro id hid
    obtain ⟨h₁, h₂⟩ := NpuSchedulerState.reclassifyTask_others (s := s₁) hid
    rw [h₁, h₂, ← hs₁]
    exact ⟨Std.ExtTreeMap.getElem?_insert_of_ne (Ne.symm hid), rfl⟩
  have hframe := (NpuSchedulerState.reclassifyTask_frame s₁ binding.taskId).1.trans hcores
  have hagrees := fun fl (hfl : (inflightOf s₁.coreBinding binding.taskId).Perm fl) =>
    agrees_reclassifyTask ht₁ hc₁ hfl
  have hmoved := (NpuSchedulerState.reclassifyTask_self ht₁).1
  rw [hcores] at hagrees
  generalize s₁.reclassifyTask binding.taskId = r at *
  obtain ⟨moved, s₂⟩ := r
  by_cases hterm : t₁.isTerminal = true
  · simp only [hterm, ↓reduceIte] at hmoved ⊢
    subst hmoved
    refine ⟨?_, hframe, ?_⟩
    · intro fl hfl
      have hafter := hagrees fl hfl
      simp only [settledPlace, hterm, ↓reduceIte] at hafter ⊢
      refine ⟨hafter.tasks, ?_, hafter.inflight⟩
      exact Std.ExtTreeMap.getElem?_modify_self.trans (by rw [hafter.complete]; rfl)
    · intro id hid
      exact ⟨(hothers id hid).1, (Std.ExtTreeMap.getElem?_modify_of_ne (Ne.symm hid)).trans (hothers id hid).2⟩
  · simp only [hterm, ↓reduceIte, Bool.false_eq_true] at hmoved ⊢
    subst hmoved
    exact ⟨hagrees, hframe, hothers⟩

theorem tracks_harvestCompletion (hs : s.Consistent) (completion : CoreCompletion) (timeNs : UInt64) :
    Tracks s (Sys.harvestEvent s completion timeNs) (s.harvestCompletion completion timeNs).2 := by
  unfold Sys.harvestEvent
  cases hbound : s.coreBinding[completion.coreSlot.toNat]? with
  | none =>
      simp only [NpuSchedulerState.harvestCompletion, hbound]
      exact fun id ℓ hagree => ⟨ℓ, .nil, hagree⟩
  | some binding =>
      simp only [Std.ExtTreeMap.contains_eq_isSome_getElem?]
      cases ht : s.tasks[binding.taskId]? with
      | none =>
          -- The submit has left: only the binding goes.
          simp only [NpuSchedulerState.harvestCompletion, hbound, ht, Option.isSome_none, Bool.false_eq_true,
            ↓reduceIte]
          refine Tracks.of_step ?_ ?_
          · intro id hid
            exact ⟨rfl, rfl, inflightOf_erase_of_ne hbound (Ne.symm hid)⟩
          · intro ℓ hagree
            obtain ⟨hmem, hperm⟩ := hagree.perm_erase hbound rfl
            exact ⟨_, .orphaned (hagree.not_live ht) hmem, hagree.tasks, hagree.complete, hperm⟩
      | some t =>
          simp only [Option.isSome_some, ↓reduceIte]
          obtain ⟨hown, hcores, hothers⟩ :=
            harvestCompletion_live hbound ht ((hs.filed _).owned t ht) timeNs
          refine Tracks.of_step ?_ ?_
          · intro id hid
            refine ⟨(hothers id hid).1, (hothers id hid).2, ?_⟩
            rw [hcores]
            exact inflightOf_erase_of_ne hbound (Ne.symm hid)
          · intro ℓ hagree
            obtain ⟨hplace, htask⟩ := hagree.live ht
            obtain ⟨t', p, fl⟩ := ℓ
            simp only at hplace htask
            subst hplace htask
            obtain ⟨hmem, hperm⟩ := hagree.perm_erase hbound rfl
            exact ⟨_, .harvested hmem, hown _ hperm⟩

theorem tracks_harvestCompletions (completions : List (CoreCompletion × UInt64)) (hs : s.Consistent) :
    Tracks s (Sys.harvestEvents completions s) (s.harvestCompletions completions).2 := by
  induction completions generalizing s with
  | nil => exact fun id ℓ hagree => ⟨ℓ, .nil, hagree⟩
  | cons c completions ih =>
      obtain ⟨completion, timeNs⟩ := c
      rw [NpuSchedulerState.harvestCompletions_cons]
      have hmoved : Tracks (s.harvestCompletion completion timeNs).2
          (Sys.movedEvent (s.harvestCompletion completion timeNs).1 (s.harvestCompletion completion timeNs).2)
          (s.harvestCompletion completion timeNs).2 := by
        intro id ℓ hagree
        exact ⟨ℓ, by rw [eventsOf_movedEvent]; exact .nil, hagree⟩
      exact ((tracks_harvestCompletion hs completion timeNs).trans hmoved).trans
        (ih (hs.harvestCompletion completion timeNs))

theorem tracks_wakeTask (s : NpuSchedulerState W) (prepareError : Bool) (taskId : RknpuQueueTaskId) :
    Tracks s (Sys.wakeEvent s prepareError taskId) (s.wakeTask prepareError taskId).2 := by
  -- The error mark and the wake-up are two events; both concern a complete record only.
  have hmark : Tracks s
      (if prepareError ∧ s.complete.contains taskId then [.submit taskId .readFailed] else [])
      (if prepareError then
        { s with complete := s.complete.modify taskId ({ · with lastError := some .memoryError }) }
      else s) := by
    cases prepareError with
    | false => exact fun id ℓ hagree => ⟨ℓ, .nil, hagree⟩
    | true =>
        simp only [true_and, ↓reduceIte, Std.ExtTreeMap.contains_eq_isSome_getElem?]
        cases hc : s.complete[taskId]? with
        | none =>
            intro id ℓ hagree
            refine ⟨ℓ, .nil, hagree.of_frame rfl ?_ (.refl _)⟩
            by_cases hid : taskId = id
            · subst hid
              rw [Std.ExtTreeMap.getElem?_modify_self, hc]
              rfl
            · exact Std.ExtTreeMap.getElem?_modify_of_ne hid
        | some task =>
            refine Tracks.of_step ?_ ?_
            · intro id hid
              exact ⟨rfl, Std.ExtTreeMap.getElem?_modify_of_ne (Ne.symm hid), .refl _⟩
            · intro ℓ hagree
              obtain ⟨hplace, htask⟩ := hagree.done hc
              obtain ⟨t', p, fl⟩ := ℓ
              simp only at hplace htask
              subst hplace htask
              refine ⟨_, .readFailed, hagree.tasks, ?_, hagree.inflight⟩
              rw [Std.ExtTreeMap.getElem?_modify_self, hc]
              rfl
  refine hmark.trans ?_
  have hwaiters : (if prepareError then
      { s with complete := s.complete.modify taskId ({ · with lastError := some .memoryError }) }
      else s).waiters = s.waiters := by split <;> rfl
  have hcomplete : (if prepareError then
      { s with complete := s.complete.modify taskId ({ · with lastError := some .memoryError }) }
      else s).complete[taskId]? = none ↔ s.complete[taskId]? = none := by
    split
    · exact Std.ExtTreeMap.getElem?_modify_eq_none_iff
    · exact Iff.rfl
  unfold NpuSchedulerState.wakeTask
  dsimp only
  generalize (if prepareError then
      { s with complete := s.complete.modify taskId ({ · with lastError := some .memoryError }) }
      else s) = s₁ at *
  simp only [← hwaiters, Std.ExtTreeMap.contains_eq_isSome_getElem?]
  cases hc : s₁.complete[taskId]? with
  | none =>
      rw [hcomplete.mp hc]
      intro id ℓ hagree
      refine ⟨ℓ, .nil, ?_⟩
      split
      · exact hagree
      · refine hagree.of_frame rfl ?_ (.refl _)
        by_cases hid : taskId = id
        · subst hid
          rw [Std.ExtTreeMap.getElem?_erase_self, hc]
        · exact Std.ExtTreeMap.getElem?_erase_of_ne hid
  | some task =>
      have hsome : s.complete[taskId]?.isSome = true := by
        rw [Option.isSome_iff_ne_none, ne_eq, ← hcomplete, hc]
        exact nofun
      simp only [hsome, Bool.not_true, Bool.false_eq_true, ↓reduceIte]
      cases s₁.waiters[taskId]? with
      | some waiter =>
          refine Tracks.of_step (fun _ _ => ⟨rfl, rfl, .refl _⟩) ?_
          intro ℓ hagree
          obtain ⟨hplace, htask⟩ := hagree.done hc
          obtain ⟨t', p, fl⟩ := ℓ
          simp only at hplace htask
          subst hplace htask
          exact ⟨_, .woken, hagree⟩
      | none =>
          refine Tracks.of_step ?_ ?_
          · intro id hid
            exact ⟨rfl, Std.ExtTreeMap.getElem?_erase_of_ne (Ne.symm hid), .refl _⟩
          · intro ℓ hagree
            obtain ⟨hplace, htask⟩ := hagree.done hc
            obtain ⟨t', p, fl⟩ := ℓ
            simp only at hplace htask
            subst hplace htask
            exact ⟨_, .dropped, hagree.tasks, Std.ExtTreeMap.getElem?_erase_self, hagree.inflight⟩

theorem tracks_wakeTerminalTasks (prepareError : Bool) (taskIds : List RknpuQueueTaskId)
    (s : NpuSchedulerState W) :
    Tracks s (Sys.wakeEvents prepareError taskIds s) (s.wakeTerminalTasks prepareError taskIds).2 := by
  induction taskIds generalizing s with
  | nil => exact fun id ℓ hagree => ⟨ℓ, .nil, hagree⟩
  | cons id taskIds ih => exact (tracks_wakeTask s prepareError id).trans (ih _)

theorem tracks_abortWait (s : NpuSchedulerState W) (taskId : RknpuQueueTaskId) :
    Tracks s (if s.tasks.contains taskId || s.complete.contains taskId then [.submit taskId .aborted] else [])
      (s.abortWait taskId) := by
  unfold NpuSchedulerState.abortWait
  simp only [Std.ExtTreeMap.contains_eq_isSome_getElem?]
  cases hc : s.complete[taskId]? with
  | some task =>
      simp only [Option.isSome_some, Bool.or_true, ↓reduceIte]
      refine Tracks.of_step ?_ ?_
      · intro id hid
        exact ⟨rfl, Std.ExtTreeMap.getElem?_erase_of_ne (Ne.symm hid), .refl _⟩
      · intro ℓ hagree
        obtain ⟨hplace, htask⟩ := hagree.done hc
        obtain ⟨t', p, fl⟩ := ℓ
        simp only at hplace htask
        subst hplace htask
        exact ⟨_, .abortedDone, hagree.tasks, Std.ExtTreeMap.getElem?_erase_self, hagree.inflight⟩
  | none =>
      simp only [Option.isSome_none, Bool.or_false, Bool.false_eq_true, ↓reduceIte]
      generalize hs₁ : ({ s with
        waiters := s.waiters.erase taskId
        tasks := s.tasks.modify taskId ({ · with lastError := some .interrupted }) } :
          NpuSchedulerState W) = s₁
      have hothers : ∀ id, id ≠ taskId → (s₁.reclassifyTask taskId).2.tasks[id]? = s.tasks[id]? ∧
          (s₁.reclassifyTask taskId).2.complete[id]? = s.complete[id]? := by
        intro id hid
        obtain ⟨h₁, h₂⟩ := NpuSchedulerState.reclassifyTask_others (s := s₁) hid
        rw [h₁, h₂, ← hs₁]
        exact ⟨Std.ExtTreeMap.getElem?_modify_of_ne (Ne.symm hid), rfl⟩
      have hcores : (s₁.reclassifyTask taskId).2.coreBinding = s.coreBinding := by
        rw [(NpuSchedulerState.reclassifyTask_frame s₁ taskId).1, ← hs₁]
      have hc₁ : s₁.complete[taskId]? = none := by
        rw [← hs₁]
        exact hc
      cases ht : s.tasks[taskId]? with
      | none =>
          have ht₁ : s₁.tasks[taskId]? = none := by
            rw [← hs₁]
            exact Std.ExtTreeMap.getElem?_modify_eq_none_iff.mpr ht
          have hsame : s₁.reclassifyTask taskId = (none, s₁.unfile taskId) := by
            rcases NpuSchedulerState.reclassifyTask_cases s₁ taskId with ⟨_, he⟩ | ⟨t, ht', _⟩
            · exact he
            · rw [ht₁] at ht'
              cases ht'
          rw [hsame] at hothers hcores ⊢
          intro id ℓ hagree
          refine ⟨ℓ, .nil, hagree.of_frame ?_ ?_ (by rw [hcores])⟩
          · by_cases hid : id = taskId
            · subst hid
              rw [ht]
              exact ht₁
            · exact (hothers id hid).1
          · by_cases hid : id = taskId
            · subst hid
              rw [hc]
              exact hc₁
            · exact (hothers id hid).2
      | some t =>
          have ht₁ : s₁.tasks[taskId]? = some { t with lastError := some .interrupted } := by
            rw [← hs₁]
            exact Std.ExtTreeMap.getElem?_modify_self.trans (by rw [ht]; rfl)
          obtain ⟨hmoved, htasks, hcomplete⟩ := NpuSchedulerState.reclassifyTask_self ht₁
          have hterm : ({ t with lastError := some .interrupted } : RknpuQueueTask).isTerminal =
              !t.hasRunningTasks := RknpuQueueTask.isTerminal_of_error nofun
          rw [hterm] at hmoved htasks hcomplete
          generalize s₁.reclassifyTask taskId = r at *
          obtain ⟨moved, s₂⟩ := r
          simp only at hothers hcores hmoved htasks hcomplete
          cases hrun : t.hasRunningTasks with
          | true =>
              simp only [hrun, Bool.not_true, Bool.false_eq_true, ↓reduceIte] at hmoved htasks hcomplete
              subst hmoved
              refine Tracks.of_step (fun id hid => ⟨(hothers id hid).1, (hothers id hid).2, by rw [hcores]⟩) ?_
              intro ℓ hagree
              obtain ⟨hplace, htask⟩ := hagree.live ht
              obtain ⟨t', p, fl⟩ := ℓ
              simp only at hplace htask
              subst hplace htask
              refine ⟨_, .abortedLive, ?_, ?_, ?_⟩
              · simp [hrun, htasks]
              · simp [hrun, hcomplete, hc₁]
              · rw [hcores]
                exact hagree.inflight
          | false =>
              simp only [hrun, Bool.not_false, ↓reduceIte] at hmoved htasks hcomplete
              subst hmoved
              refine Tracks.of_step (fun id hid => ⟨(hothers id hid).1,
                (Std.ExtTreeMap.getElem?_erase_of_ne (Ne.symm hid)).trans (hothers id hid).2,
                by rw [hcores]⟩) ?_
              intro ℓ hagree
              obtain ⟨hplace, htask⟩ := hagree.live ht
              obtain ⟨t', p, fl⟩ := ℓ
              simp only at hplace htask
              subst hplace htask
              refine ⟨_, .abortedLive, ?_, ?_, ?_⟩
              · simp [hrun, htasks]
              · simp [hrun]
              · rw [hcores]
                exact hagree.inflight

theorem tracks_takeTerminalSubmit (s : NpuSchedulerState W) (taskId : RknpuQueueTaskId) :
    Tracks s (s.complete[taskId]?.map fun task => .submit taskId (.taken task)).toList
      (s.takeTerminalSubmit taskId).2 := by
  unfold NpuSchedulerState.takeTerminalSubmit
  cases hc : s.complete[taskId]? with
  | none => exact fun id ℓ hagree => ⟨ℓ, .nil, hagree⟩
  | some task =>
      refine Tracks.of_step ?_ ?_
      · intro id hid
        exact ⟨rfl, Std.ExtTreeMap.getElem?_erase_of_ne (Ne.symm hid), .refl _⟩
      · intro ℓ hagree
        obtain ⟨hplace, htask⟩ := hagree.done hc
        obtain ⟨t', p, fl⟩ := ℓ
        simp only at hplace htask
        subst hplace htask
        exact ⟨_, .taken, hagree.tasks, Std.ExtTreeMap.getElem?_erase_self, hagree.inflight⟩

end Rknpu.Service
