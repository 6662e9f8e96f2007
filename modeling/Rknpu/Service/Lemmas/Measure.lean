import Rknpu.Service.Lemmas.Queues

/-!
# The measure of the dispatch loop

How many live submits have no error, and how many cores are idle. An accepted dispatch uses up an idle core. A
refused one frees its core again, but its submit has an error from then on.
-/

namespace Rknpu.Service

open Queue

variable {W : Type}

namespace NpuSchedulerState

variable {s s' : NpuSchedulerState W} {taskId : RknpuQueueTaskId}

/-- The live submits without an error. -/
def errorFree (s : NpuSchedulerState W) : List RknpuQueueTaskId :=
  (s.tasks.toList.filter fun e => e.2.lastError.isNone).map Prod.fst

theorem mem_errorFree : taskId ∈ s.errorFree ↔ ∃ t, s.tasks[taskId]? = some t ∧ t.lastError = none := by
  simp only [errorFree, List.mem_map, List.mem_filter, Prod.exists, exists_and_right, exists_eq_right,
    Std.ExtTreeMap.mem_toList_iff_getElem?_eq_some, Option.isNone_iff_eq_none]

theorem nodup_errorFree (s : NpuSchedulerState W) : s.errorFree.Nodup := by
  refine List.Nodup.sublist (List.filter_sublist.map Prod.fst) ?_
  rw [Std.ExtTreeMap.map_fst_toList_eq_keys]
  refine s.tasks.distinct_keys.imp fun h he => ?_
  subst he
  exact h Std.ReflCmp.compare_self

theorem length_errorFree_le (h : s'.errorFree ⊆ s.errorFree) : s'.errorFree.length ≤ s.errorFree.length :=
  (s'.nodup_errorFree.subperm h).length_le

theorem length_errorFree_lt (h : s'.errorFree ⊆ s.errorFree) (hmem : taskId ∈ s.errorFree)
    (hno : taskId ∉ s'.errorFree) : s'.errorFree.length < s.errorFree.length := by
  have hsub : taskId :: s'.errorFree ⊆ s.errorFree := List.cons_subset.mpr ⟨hmem, h⟩
  have hle := ((List.nodup_cons.mpr ⟨hno, s'.nodup_errorFree⟩).subperm hsub).length_le
  rwa [List.length_cons] at hle

/-- Writing an error into one record and filing it anew leaves the other error-free records. -/
theorem of_tasks_reclassifyTask_modify {f : RknpuQueueTask → RknpuQueueTask} (hf : ∀ t, (f t).lastError ≠ none)
    (htasks : s'.tasks = s.tasks.modify taskId f) {id : RknpuQueueTaskId} {t : RknpuQueueTask}
    (ht : (s'.reclassifyTask taskId).2.tasks[id]? = some t) (he : t.lastError = none) :
    s.tasks[id]? = some t ∧ id ≠ taskId := by
  have ht' := of_tasks_reclassifyTask ht
  rw [htasks] at ht'
  by_cases hid : taskId = id
  · subst hid
    obtain ⟨t₀, _, rfl⟩ := Option.map_eq_some_iff.mp (Std.ExtTreeMap.getElem?_modify_self.symm.trans ht')
    exact (hf t₀ he).elim
  · exact ⟨(Std.ExtTreeMap.getElem?_modify_of_ne hid).symm.trans ht', Ne.symm hid⟩

theorem of_tasks_abortWait {id : RknpuQueueTaskId} {t : RknpuQueueTask}
    (ht : (s.abortWait taskId).tasks[id]? = some t) (he : t.lastError = none) : s.tasks[id]? = some t := by
  rcases abortWait_cases s taskId with hs | ⟨complete, _, hs⟩
  · rw [hs] at ht
    exact ht
  · rw [hs] at ht
    have htasks : (s.interrupt taskId).tasks = s.tasks.modify taskId ({ · with lastError := some .interrupted }) := rfl
    exact (of_tasks_reclassifyTask_modify (fun _ => Option.some_ne_none _) htasks ht he).1

/-! ## The sections between two decisions -/

/-- A section that binds no core and unbinds none, and makes no submit error-free. -/
structure Shrinks (s s' : NpuSchedulerState W) : Prop where
  errorFree : s'.errorFree ⊆ s.errorFree
  cores : s'.coreBinding = s.coreBinding

theorem Shrinks.refl (s : NpuSchedulerState W) : Shrinks s s := ⟨List.Subset.refl _, rfl⟩

theorem Shrinks.trans {s'' : NpuSchedulerState W} (h : Shrinks s s') (h' : Shrinks s' s'') : Shrinks s s'' :=
  ⟨List.Subset.trans h'.errorFree h.errorFree, h'.cores.trans h.cores⟩

theorem Shrinks.of_tasks (htasks : s'.tasks = s.tasks) (hcores : s'.coreBinding = s.coreBinding) : Shrinks s s' := by
  refine ⟨?_, hcores⟩
  rw [NpuSchedulerState.errorFree, htasks]
  exact List.Subset.refl _

theorem shrinks_abortWait (s : NpuSchedulerState W) (taskId : RknpuQueueTaskId) : Shrinks s (s.abortWait taskId) := by
  refine ⟨fun id hid => ?_, abortWait_coreBinding s taskId⟩
  obtain ⟨t, ht, he⟩ := mem_errorFree.mp hid
  exact mem_errorFree.mpr ⟨t, of_tasks_abortWait ht he, he⟩

theorem shrinks_takeTerminalSubmit (s : NpuSchedulerState W) (taskId : RknpuQueueTaskId) :
    Shrinks s (s.takeTerminalSubmit taskId).2 := by
  unfold takeTerminalSubmit
  split
  · exact Shrinks.refl s
  · exact Shrinks.of_tasks rfl rfl

theorem shrinks_wakeTask (s : NpuSchedulerState W) (prepareError : Bool) (taskId : RknpuQueueTaskId) :
    Shrinks s (s.wakeTask prepareError taskId).2 := by
  unfold wakeTask
  dsimp only
  have hmark : Shrinks s (if prepareError then
      { s with complete := s.complete.modify taskId ({ · with lastError := some .memoryError }) } else s) := by
    split
    · exact Shrinks.of_tasks rfl rfl
    · exact Shrinks.refl s
  split
  · exact hmark
  · exact hmark.trans (Shrinks.of_tasks rfl rfl)

theorem shrinks_wakeTerminalTasks (prepareError : Bool) (taskIds : List RknpuQueueTaskId) (s : NpuSchedulerState W) :
    Shrinks s (s.wakeTerminalTasks prepareError taskIds).2 := by
  induction taskIds generalizing s with
  | nil => exact Shrinks.refl s
  | cons id taskIds ih => exact (shrinks_wakeTask s prepareError id).trans (ih _)

theorem shrinks_markDispatched (s : NpuSchedulerState W) (taskId : RknpuQueueTaskId) (timeNs : UInt64) :
    Shrinks s (s.markDispatched taskId timeNs) := by
  refine ⟨fun id hid => ?_, rfl⟩
  obtain ⟨t, ht, he⟩ := mem_errorFree.mp hid
  by_cases hne : taskId = id
  · subst hne
    obtain ⟨t₀, ht₀, rfl⟩ := Option.map_eq_some_iff.mp (Std.ExtTreeMap.getElem?_modify_self.symm.trans ht)
    refine mem_errorFree.mpr ⟨t₀, ht₀, ?_⟩
    rw [← he]
    unfold RknpuQueueTask.markFirstDispatch
    split <;> rfl
  · exact mem_errorFree.mpr ⟨t, (Std.ExtTreeMap.getElem?_modify_of_ne hne).symm.trans ht, he⟩

/-! ## One attempt -/

theorem idleCores_of_coreBinding (h : ∀ c : Nat, s'.coreBinding[c]? = s.coreBinding[c]?) :
    s'.idleCores = s.idleCores := by
  simp only [idleCores, Std.ExtTreeMap.contains_eq_isSome_getElem?, h]

/-- Binding an idle core leaves one idle core less. -/
theorem length_idleCores_insert {coreSlot : Nat} (hidle : coreSlot ∈ s.idleCores) {binding : CoreRunBinding}
    (h : s'.coreBinding = s.coreBinding.insert coreSlot binding) : s'.idleCores.length < s.idleCores.length := by
  have hmem : ∀ c, c ∈ s'.idleCores → c ∈ s.idleCores ∧ c ≠ coreSlot := by
    intro c hc
    rw [mem_idleCores, h] at hc
    have hne : coreSlot ≠ c := by
      rintro rfl
      rw [Std.ExtTreeMap.getElem?_insert_self] at hc
      cases hc.2
    rw [Std.ExtTreeMap.getElem?_insert_of_ne hne] at hc
    exact ⟨mem_idleCores.mpr hc, Ne.symm hne⟩
  have hnodup : s'.idleCores.Nodup := List.nodup_range.filter _
  have hsub : coreSlot :: s'.idleCores ⊆ s.idleCores :=
    List.cons_subset.mpr ⟨hidle, fun c hc => (hmem c hc).1⟩
  have hle := ((List.nodup_cons.mpr ⟨fun hc => (hmem _ hc).2 rfl, hnodup⟩).subperm hsub).length_le
  rwa [List.length_cons] at hle

/-- A decision that finds a task binds an idle core to a task of an error-free submit. -/
structure Binds (s : NpuSchedulerState W) (setup : DispatchSetup) (s' : NpuSchedulerState W) : Prop where
  errorFree : s'.errorFree ⊆ s.errorFree
  submit : setup.binding.taskId ∈ s.errorFree
  idle : setup.coreSlot ∈ s.idleCores
  cores : s'.coreBinding = s.coreBinding.insert setup.coreSlot setup.binding

theorem errorFree_reserve {coreSlot : Nat} {binding : CoreRunBinding} {task : RknpuQueueTask}
    (htask : s.tasks[binding.taskId]? = some task) : (s.reserve coreSlot binding task).errorFree ⊆ s.errorFree := by
  intro id hid
  obtain ⟨t, ht, he⟩ := mem_errorFree.mp hid
  by_cases hne : binding.taskId = id
  · subst hne
    cases Std.ExtTreeMap.getElem?_insert_self.symm.trans ht
    exact mem_errorFree.mpr ⟨task, htask, (RknpuQueueTask.lastError_reserveSlot task _).symm.trans he⟩
  · exact mem_errorFree.mpr ⟨t, (Std.ExtTreeMap.getElem?_insert_of_ne hne).symm.trans ht, he⟩

theorem Decided.binds {r : Option DispatchSetup × NpuSchedulerState W} (h : Decided s r) {setup : DispatchSetup}
    (hsome : r.1 = some setup) : Binds s setup r.2 := by
  cases h with
  | nothing _ => cases hsome
  | @continued coreSlot priority binding task taskDesc hidle _ hcand =>
      cases hsome
      have hfree := RknpuQueueTask.lastError_of_nextDispatchableTask hcand.next
      exact ⟨errorFree_reserve hcand.live, mem_errorFree.mpr ⟨task, hcand.live, hfree⟩, hidle, rfl⟩
  | @promoted coreSlot priority binding task taskDesc hidle _ _ hcand =>
      cases hsome
      have hfree := RknpuQueueTask.lastError_of_nextDispatchableTask hcand.next
      have hsub : ((s.promote priority binding.taskId task).reserve coreSlot binding task).errorFree ⊆ s.errorFree :=
        errorFree_reserve (s := s.promote priority binding.taskId task) hcand.live
      exact ⟨hsub, mem_errorFree.mpr ⟨task, hcand.live, hfree⟩, hidle, rfl⟩

/-- The measure: error-free live submits and idle cores. -/
def dispatchBudget (s : NpuSchedulerState W) : Nat := s.errorFree.length + s.idleCores.length

theorem Shrinks.budget_le (h : Shrinks s s') : s'.dispatchBudget ≤ s.dispatchBudget := by
  have hcores := idleCores_of_coreBinding fun c => congrArg (·[c]?) h.cores
  rw [dispatchBudget, dispatchBudget, hcores]
  exact Nat.add_le_add_right (length_errorFree_le h.errorFree) _

theorem Binds.budget_lt {setup : DispatchSetup} (h : Binds s setup s') : s'.dispatchBudget < s.dispatchBudget :=
  Nat.add_lt_add_of_le_of_lt (length_errorFree_le h.errorFree) (length_idleCores_insert h.idle h.cores)

/-- A refused dispatch gives the core back and costs the submit. -/
theorem Binds.budget_failDispatch {s'' : NpuSchedulerState W} {setup : DispatchSetup} (h : Binds s setup s')
    (hshrinks : Shrinks s' s'') (err : RknpuError) :
    (s''.failDispatch setup.coreSlot setup.binding err).2.dispatchBudget < s.dispatchBudget := by
  have hframe : (s''.failDispatch setup.coreSlot setup.binding err).2.coreBinding =
      s''.coreBinding.erase setup.coreSlot := (reclassifyTask_frame _ _).1
  have hidle := (mem_idleCores.mp h.idle).2
  have hcores : (s''.failDispatch setup.coreSlot setup.binding err).2.idleCores = s.idleCores := by
    refine idleCores_of_coreBinding fun c => ?_
    rw [hframe, hshrinks.cores, h.cores]
    by_cases hc : setup.coreSlot = c
    · subst hc
      rw [Std.ExtTreeMap.getElem?_erase_self, hidle]
    · rw [Std.ExtTreeMap.getElem?_erase_of_ne hc, Std.ExtTreeMap.getElem?_insert_of_ne hc]
  have hmem : ∀ id ∈ (s''.failDispatch setup.coreSlot setup.binding err).2.errorFree,
      id ∈ s''.errorFree ∧ id ≠ setup.binding.taskId := by
    intro id hid
    obtain ⟨t, ht, he⟩ := mem_errorFree.mp hid
    have hmodify := of_tasks_reclassifyTask_modify (fun t => ?_) rfl ht he
    · exact ⟨mem_errorFree.mpr ⟨t, hmodify.1, he⟩, hmodify.2⟩
    · exact RknpuQueueTask.lastError_failDispatch t setup.binding.laneSlot err ▸ Option.some_ne_none err
  rw [dispatchBudget, dispatchBudget, hcores]
  refine Nat.add_lt_add_right (length_errorFree_lt (fun id hid => ?_) h.submit fun hid => (hmem _ hid).2 rfl) _
  exact h.errorFree (hshrinks.errorFree (hmem id hid).1)

/-- The budget of a state with `n` error-free submits is at most `n` and the number of cores. -/
theorem dispatchBudget_le (s : NpuSchedulerState W) : s.dispatchBudget ≤ s.errorFree.length + npuMaxCores := by
  refine Nat.add_le_add_left ?_ _
  exact (List.length_filter_le _ _).trans_eq List.length_range

end NpuSchedulerState

end Rknpu.Service
