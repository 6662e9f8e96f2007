import Rknpu.Service.Lemmas.Rounds
import Rknpu.Service.Theorems.Completion

/-!
# The queues and the core bindings of a reachable state

The scheduler keeps the place of a submit twice: in the queues and in the record, and which core works for
it twice: in the core bindings and in the running bits or counters of the record. In every reachable state
the copies agree.
-/

namespace Rknpu.Service

open Queue

variable {W : Type}

/-! ## Queues -/

/-- Ids stand where their records say. -/
structure NpuSchedulerState.QueuesConsistent (s : NpuSchedulerState W) : Prop where
  live : ∀ id, id ∈ s.ready.elems ∨ id ∈ s.running.elems → s.tasks.contains id = true
  once : (s.ready.elems ++ s.running.elems).Nodup
  priority : ∀ p id t, s.ready.MemAt p id ∨ s.running.MemAt p id → s.tasks[id]? = some t →
    p = t.submitMeta.priority
  nonempty : ∀ p : Int32, s.ready[p]? ≠ some [] ∧ s.running[p]? ≠ some []
  disjoint : ∀ id, ¬ (s.tasks.contains id = true ∧ s.complete.contains id = true)
  running : ∀ id, id ∈ s.running.elems ↔ ∃ t, s.tasks[id]? = some t ∧ t.hasRunningTasks = true
  dispatchable : ∀ id t, s.tasks[id]? = some t → t.hasDispatchableTask = true →
    id ∈ s.ready.elems ∨ id ∈ s.running.elems

theorem NpuSchedulerState.Consistent.queuesConsistent {s : NpuSchedulerState W} (h : s.Consistent) :
    s.QueuesConsistent := by
  have hready : ∀ {p id}, s.ready.MemAt p id → ∃ t, s.tasks[id]? = some t ∧ t.submitMeta.priority = p ∧
      t.hasRunningTasks = false := fun hmem => (h.filed _).ready _ hmem
  have hrunning : ∀ {p id}, s.running.MemAt p id → ∃ t, s.tasks[id]? = some t ∧ t.submitMeta.priority = p ∧
      t.hasRunningTasks = true := fun hmem => ((h.filed _).running _).mp hmem
  refine ⟨?_, ?_, ?_, ?_, ?_, ?_, ?_⟩
  · rintro id (hid | hid)
    · obtain ⟨p, hmem⟩ := PrioBuckets.mem_elems.mp hid
      obtain ⟨t, ht, _⟩ := hready hmem
      rw [Std.ExtTreeMap.contains_eq_isSome_getElem?, ht]
      rfl
    · obtain ⟨p, hmem⟩ := PrioBuckets.mem_elems.mp hid
      obtain ⟨t, ht, _⟩ := hrunning hmem
      rw [Std.ExtTreeMap.contains_eq_isSome_getElem?, ht]
      rfl
  · refine List.nodup_append'.mpr ⟨h.readyWF.nodup_elems ?_, h.runningWF.nodup_elems ?_, ?_⟩
    · intro p p' id hmem hmem'
      obtain ⟨t, ht, hp, _⟩ := hready hmem
      obtain ⟨t', ht', hp', _⟩ := hready hmem'
      cases ht.symm.trans ht'
      exact hp.symm.trans hp'
    · intro p p' id hmem hmem'
      obtain ⟨t, ht, hp, _⟩ := hrunning hmem
      obtain ⟨t', ht', hp', _⟩ := hrunning hmem'
      cases ht.symm.trans ht'
      exact hp.symm.trans hp'
    · -- The running bits of the record keep the two structures apart.
      intro id hid hid'
      obtain ⟨p, hmem⟩ := PrioBuckets.mem_elems.mp hid
      obtain ⟨p', hmem'⟩ := PrioBuckets.mem_elems.mp hid'
      obtain ⟨t, ht, _, hr⟩ := hready hmem
      obtain ⟨t', ht', _, hr'⟩ := hrunning hmem'
      cases ht.symm.trans ht'
      rw [hr] at hr'
      cases hr'
  · rintro p id t (hmem | hmem) ht
    · obtain ⟨t', ht', hp, _⟩ := hready hmem
      cases ht.symm.trans ht'
      exact hp.symm
    · obtain ⟨t', ht', hp, _⟩ := hrunning hmem
      cases ht.symm.trans ht'
      exact hp.symm
  · exact fun p => ⟨fun he => h.readyWF.nonempty p [] he rfl, fun he => h.runningWF.nonempty p [] he rfl⟩
  · rintro id ⟨hlive, hdone⟩
    rw [Std.ExtTreeMap.contains_eq_isSome_getElem?] at hlive hdone
    obtain ⟨t, ht⟩ := Option.isSome_iff_exists.mp hlive
    rw [(h.filed id).owned t ht] at hdone
    cases hdone
  · intro id
    rw [PrioBuckets.mem_elems]
    constructor
    · rintro ⟨p, hmem⟩
      obtain ⟨t, ht, _, hr⟩ := hrunning hmem
      exact ⟨t, ht, hr⟩
    · rintro ⟨t, ht, hr⟩
      exact ⟨_, ((h.filed id).running _).mpr ⟨t, ht, rfl, hr⟩⟩
  · intro id t ht hd
    rw [PrioBuckets.mem_elems, PrioBuckets.mem_elems]
    cases hr : t.hasRunningTasks with
    | false => exact .inl ⟨_, (h.filed id).queued t ht hr hd⟩
    | true => exact .inr ⟨_, ((h.filed id).running _).mpr ⟨t, ht, rfl, hr⟩⟩

/-- The queues of every reachable state are consistent, as long as no id is handed out twice. -/
theorem queues_consistent {acts : List (Act W)} {y : Sys W} (hrun : (scheduler W).run acts = some y)
    (hfit : y.IdsFit) : y.state.QueuesConsistent :=
  (Sys.inv_of_run hrun hfit).queues.queuesConsistent

theorem queues_consistent_split : ∃ y : Sys Unit, (scheduler Unit).run splitRun = some y ∧
    y.state.running.elems = [2] ∧ y.state.QueuesConsistent := by
  obtain ⟨y, hrun, h⟩ : ∃ y : Sys Unit, (scheduler Unit).run splitRun = some y ∧
      decide (y.IdsFit ∧ y.state.running.elems = [2]) = true := (Option.any_eq_true _ _).mp (by decide +kernel)
  obtain ⟨hfit, hlist⟩ := of_decide_eq_true h
  exact ⟨y, hrun, hlist, queues_consistent hrun hfit⟩

/-- A second submit with the id of a live one is filed in the bucket of its own priority, and the id then
stands in two buckets. -/
theorem queues_inconsistent_on_wrap : ∃ acts, ∃ y : Sys Unit, (scheduler Unit).run acts = some y ∧
    ¬ y.state.QueuesConsistent := by
  obtain ⟨acts, pre, z, hrun, htwice⟩ := exists_wrapped_run
    [.enqueue (twoLanes 1 ⟨0, 1⟩ ⟨0, 0⟩) [plainTask] 0 () 0]
    [.enqueue { twoLanes 1 ⟨0, 1⟩ ⟨0, 0⟩ with priority := 1 } [plainTask] 0 () 0]
    (p := fun z => ¬ z.state.ready.elems.Nodup) () (by decide +kernel)
  exact ⟨acts, z.after pre, hrun, fun hcons => htwice hcons.once.of_append_left⟩

/-! ## Core bindings -/

/-- The cores bound to a submit. -/
def NpuSchedulerState.boundCores (s : NpuSchedulerState W) (taskId : RknpuQueueTaskId) :
    List (Nat × CoreRunBinding) :=
  s.coreBinding.toList.filter fun e => e.2.taskId = taskId

/-- The core is bound to this lane of the submit. -/
def NpuSchedulerState.BoundTo (s : NpuSchedulerState W) (taskId : RknpuQueueTaskId) (laneSlot : LaneSlot)
    (coreSlot : Nat) : Prop :=
  ∃ binding, s.coreBinding[coreSlot]? = some binding ∧ binding.taskId = taskId ∧ binding.laneSlot = laneSlot

/-- A static submit: a lane is running exactly when one core is bound to it, and that core works on the task
at the cursor. -/
structure StaticAgreement (s : NpuSchedulerState W) (taskId : RknpuQueueTaskId) (t : RknpuQueueTask) : Prop where
  lane : ∀ l, getElem t.laneIsrun l l.isLt = true ↔ ∃! coreSlot, s.BoundTo taskId l coreSlot
  index : ∀ (coreSlot : Nat) (binding : CoreRunBinding), s.coreBinding[coreSlot]? = some binding → binding.taskId = taskId →
    binding.taskIndex.toNat =
      (getElem t.submitMeta.laneRanges binding.laneSlot binding.laneSlot.isLt).taskStart.toNat +
        (getElem t.subcoreCursors binding.laneSlot binding.laneSlot.isLt).toNat

/-- A dynamic submit: the counters count the bound cores, the harvested and the failed dispatches. -/
structure DynamicAgreement (s : NpuSchedulerState W) (taskId : RknpuQueueTaskId) (t : RknpuQueueTask)
    (failed : Nat) : Prop where
  running : t.dynamicRunningTasks.toNat = (s.boundCores taskId).length
  distinct : ((s.boundCores taskId).map fun e => e.2.taskIndex).Nodup
  below : ∀ e ∈ s.boundCores taskId, e.2.taskIndex.toNat < t.dynamicNextTask.toNat
  next : t.dynamicNextTask.toNat = t.dynamicCompletedTasks.toNat + t.dynamicRunningTasks.toNat + failed

theorem inflightOf_eq_map (coreBinding : CoreMap) (taskId : RknpuQueueTaskId) :
    inflightOf coreBinding taskId =
      (coreBinding.toList.filter fun e => e.2.taskId = taskId).map fun e => e.2.slot e.1 := by
  unfold inflightOf
  induction coreBinding.toList with
  | nil => rfl
  | cons e l ih =>
      rw [List.filterMap_cons, List.filter_cons, ih]
      by_cases he : e.2.taskId = taskId
      · simp [he]
      · simp [he]

theorem Agrees.inflight_eq_nil {s : NpuSchedulerState W} {taskId : RknpuQueueTaskId} {ℓ : Life}
    (h : Agrees s taskId ℓ) (hidle : s.boundCores taskId = []) : ℓ.inflight = [] := by
  have hperm := h.inflight
  rw [inflightOf_eq_map] at hperm
  unfold NpuSchedulerState.boundCores at hidle
  rw [hidle] at hperm
  exact List.nil_perm.mp hperm

theorem Agrees.staticAgreement {s : NpuSchedulerState W} {taskId : RknpuQueueTaskId} {t : RknpuQueueTask}
    {fl : List Slot} {evs : List SubmitEvent} (h : Agrees s taskId ⟨t, .live, fl⟩)
    (hinv : StaticInv t.submitMeta evs ⟨t, .live, fl⟩) : StaticAgreement s taskId t := by
  have hmem : ∀ {coreSlot : Nat} {binding : CoreRunBinding}, s.coreBinding[coreSlot]? = some binding → binding.taskId = taskId →
      binding.slot coreSlot ∈ fl := fun hb hid =>
    h.inflight.mem_iff.mp (mem_inflightOf.mpr ⟨_, hb, hid, rfl⟩)
  refine ⟨?_, ?_⟩
  · intro l
    constructor
    · intro hr
      have hbound := (hinv.bound rfl l).trans (if_pos hr)
      obtain ⟨slot, hslot, hl⟩ : ∃ slot ∈ fl, slot.laneSlot = l := by
        by_contra hno
        push Not at hno
        rw [laneTasks_eq_nil_iff.mpr hno] at hbound
        cases hbound
      subst hl
      obtain ⟨binding, hb, hid, hbslot⟩ := mem_inflightOf.mp (h.inflight.mem_iff.mpr hslot)
      refine ⟨slot.core, ⟨binding, hb, hid, congrArg Slot.laneSlot hbslot⟩, ?_⟩
      -- Another core would hold a second slot of the lane.
      rintro coreSlot' ⟨binding', hb', hid', hl'⟩
      by_contra hne
      have hslot' : binding'.slot coreSlot' ∈ fl.erase slot :=
        (List.mem_erase_of_ne fun he => hne (congrArg Slot.core he)).mpr (hmem hb' hid')
      exact laneTasks_eq_nil_iff.mp (hinv.slot_mem rfl hslot).2.2 _ hslot' hl'
    · rintro ⟨coreSlot, ⟨binding, hb, hid, rfl⟩, _⟩
      exact (hinv.slot_mem rfl (hmem hb hid)).1
  · intro coreSlot binding hb hid
    exact (hinv.slot_mem rfl (hmem hb hid)).2.1

theorem Agrees.dynamicAgreement {s : NpuSchedulerState W} {taskId : RknpuQueueTaskId} {t : RknpuQueueTask}
    {fl : List Slot} {evs : List SubmitEvent} (h : Agrees s taskId ⟨t, .live, fl⟩)
    (hinv : DynamicInv t.submitMeta evs ⟨t, .live, fl⟩) :
    DynamicAgreement s taskId t (failedSlots evs).length := by
  have hperm := h.inflight
  rw [inflightOf_eq_map] at hperm
  have hlen := hperm.length_eq
  rw [List.length_map] at hlen
  -- Tasks are reserved in order, so reserved tasks are distinct, and those in flight are among them.
  have hreserved : ((reservedSlots evs).map (·.taskIndex.toNat)).Nodup := by
    rw [hinv.reserved]
    exact List.nodup_range
  have hindex : (fl.map (·.taskIndex.toNat)).Nodup := by
    have hsub := (hinv.bag.map (·.taskIndex.toNat)).nodup_iff.mp hreserved
    rw [List.map_append, List.map_append] at hsub
    exact hsub.of_append_left.of_append_left
  refine ⟨hinv.running.trans hlen.symm, ?_, ?_, hinv.next_eq⟩
  · have hmap := (hperm.map (·.taskIndex.toNat)).nodup_iff.mpr hindex
    rw [List.map_map] at hmap
    refine List.Nodup.of_map UInt32.toNat ?_
    rw [List.map_map]
    exact hmap
  · intro e he
    have hslot : e.2.slot e.1 ∈ fl := hperm.mem_iff.mp (List.mem_map_of_mem he)
    exact hinv.lt_next hslot

/-- In every reachable state the record of a live submit agrees with the core bindings, as long as no id is
handed out twice. -/
theorem bindings_agree {acts : List (Act W)} {y : Sys W} (hrun : (scheduler W).run acts = some y)
    (hfit : y.IdsFit) {taskId : RknpuQueueTaskId} {t : RknpuQueueTask} (ht : y.state.tasks[taskId]? = some t) :
    (t.submitMeta.usesDynamicTasks = false → StaticAgreement y.state taskId t) ∧
      (t.submitMeta.usesDynamicTasks = true →
        DynamicAgreement y.state taskId t (failedSlots (eventsOf taskId y.hist)).length) := by
  obtain ⟨queued, timeNs, fl, _, hfits, hreach, hagree⟩ := (Sys.inv_of_run hrun hfit).life ht
  have hinv := hreach.inv hfits
  have hmeta : t.submitMeta = queued.submitMeta := hinv.submitMeta
  rw [hmeta]
  constructor
  · intro hs
    have hstatic := hinv.static hs
    rw [← hmeta] at hstatic
    exact hagree.staticAgreement hstatic
  · intro hd
    have hdynamic := hinv.dynamic hd
    rw [← hmeta] at hdynamic
    exact hagree.dynamicAgreement hdynamic

/-- A dynamic submit of two tasks. -/
def dynamicPair : RknpuSubmit := { twoLanes 2 ⟨0, 1⟩ ⟨1, 1⟩ with flags := rknpuJobDynamicTasks }

/-- Both tasks of a dynamic submit are in flight. -/
def dynamicRun : List (Act Unit) :=
  [.enqueue dynamicPair [plainTask, plainTask] 0 () 0, .decide, .launch 0, .decide, .launch 0]

theorem bindings_agree_dynamic : ∃ y : Sys Unit, (scheduler Unit).run dynamicRun = some y ∧
    ∃ t, y.state.tasks[(1 : UInt64)]? = some t ∧ (y.state.boundCores 1).length = 2 ∧
      DynamicAgreement y.state 1 t (failedSlots (eventsOf 1 y.hist)).length := by
  obtain ⟨y, hrun, h⟩ : ∃ y : Sys Unit, (scheduler Unit).run dynamicRun = some y ∧
      decide (y.IdsFit ∧ (y.state.boundCores 1).length = 2 ∧
        y.state.tasks[(1 : UInt64)]?.any fun t => t.submitMeta.usesDynamicTasks) = true :=
    (Option.any_eq_true _ _).mp (by decide +kernel)
  obtain ⟨hfit, hbound, hany⟩ := of_decide_eq_true h
  obtain ⟨t, ht, hd⟩ := (Option.any_eq_true _ _).mp hany
  exact ⟨y, hrun, t, ht, hbound, (bindings_agree hrun hfit ht).2 hd⟩

/-- A second submit with the id of a live one starts with clear counters while cores still work for the
first. -/
theorem bindings_disagree_on_wrap : ∃ acts, ∃ y : Sys Unit, (scheduler Unit).run acts = some y ∧
    ∃ t, y.state.tasks[(1 : UInt64)]? = some t ∧ t.submitMeta.usesDynamicTasks = true ∧
      ¬ DynamicAgreement y.state 1 t (failedSlots (eventsOf 1 y.hist)).length := by
  obtain ⟨acts, pre, z, hrun, hbound, hany⟩ := exists_wrapped_run
    dynamicRun [.enqueue dynamicPair [plainTask, plainTask] 0 () 0]
    (p := fun z => (z.state.boundCores 1).length = 2 ∧
      z.state.tasks[(1 : UInt64)]?.any fun t => t.submitMeta.usesDynamicTasks && t.dynamicRunningTasks == 0)
    () (by decide +kernel)
  obtain ⟨t, ht, hd⟩ := (Option.any_eq_true _ _).mp hany
  rw [Bool.and_eq_true, beq_iff_eq] at hd
  refine ⟨acts, z.after pre, hrun, t, ht, hd.1, fun hagree => ?_⟩
  have hrunning := hagree.running
  rw [hd.2, show (z.after pre).state = z.state from rfl, hbound] at hrunning
  cases hrunning

end Rknpu.Service
