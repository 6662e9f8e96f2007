import Rknpu.Service.Lemmas.Invariant
import Rknpu.Service.Lemmas.Queued

/-!
# Where live records come from

A live record has the metadata of a submit that was enqueued with its id. This does not rest on ids being unique: a
section changes a record only in fields outside its frame, and an enqueue that meets a used id replaces the record.
-/

namespace Rknpu.Service

open Queue

variable {W : Type}

namespace NpuSchedulerState

variable {s s' s'' : NpuSchedulerState W} {taskId : RknpuQueueTaskId}

/-- Every live record was live before, with the same frame. -/
def Descends (s s' : NpuSchedulerState W) : Prop :=
  ∀ (id : RknpuQueueTaskId) (t' : RknpuQueueTask), s'.tasks[id]? = some t' →
    ∃ t, s.tasks[id]? = some t ∧ t'.frame = t.frame

theorem Descends.of_tasks (h : s'.tasks = s.tasks) : Descends s s' := by
  intro id t' ht'
  rw [h] at ht'
  exact ⟨t', ht', rfl⟩

theorem Descends.trans (h : Descends s s') (h' : Descends s' s'') : Descends s s'' := by
  intro id t'' ht''
  obtain ⟨t', ht', hframe'⟩ := h' id t'' ht''
  obtain ⟨t, ht, hframe⟩ := h id t' ht'
  exact ⟨t, ht, hframe'.trans hframe⟩

theorem Descends.modify {f : RknpuQueueTask → RknpuQueueTask} (hf : ∀ t, (f t).frame = t.frame)
    (h : s'.tasks = s.tasks.modify taskId f) : Descends s s' := by
  intro id t' ht'
  rw [h] at ht'
  by_cases hid : taskId = id
  · subst hid
    obtain ⟨t, ht, rfl⟩ := Option.map_eq_some_iff.mp (Std.ExtTreeMap.getElem?_modify_self.symm.trans ht')
    exact ⟨t, ht, hf t⟩
  · exact ⟨t', (Std.ExtTreeMap.getElem?_modify_of_ne hid).symm.trans ht', rfl⟩

theorem Descends.insert {t t₁ : RknpuQueueTask} (ht : s.tasks[taskId]? = some t) (hframe : t₁.frame = t.frame)
    (h : s'.tasks = s.tasks.insert taskId t₁) : Descends s s' := by
  intro id t' ht'
  rw [h] at ht'
  by_cases hid : taskId = id
  · subst hid
    cases Std.ExtTreeMap.getElem?_insert_self.symm.trans ht'
    exact ⟨t, ht, hframe⟩
  · exact ⟨t', (Std.ExtTreeMap.getElem?_insert_of_ne hid).symm.trans ht', rfl⟩

theorem descends_reclassifyTask (s : NpuSchedulerState W) (taskId : RknpuQueueTaskId) :
    Descends s (s.reclassifyTask taskId).2 :=
  fun _ t' ht' => ⟨t', of_tasks_reclassifyTask ht', rfl⟩

/-! ## The locked sections -/

theorem Decided.descends {r : Option DispatchSetup × NpuSchedulerState W} (h : Decided s r) : Descends s r.2 := by
  cases h with
  | nothing _ => exact .of_tasks rfl
  | continued _ _ hcand => exact .insert hcand.live (RknpuQueueTask.frame_reserveSlot _ _) rfl
  | promoted _ _ _ hcand => exact .insert hcand.live (RknpuQueueTask.frame_reserveSlot _ _) rfl

theorem descends_markDispatched (s : NpuSchedulerState W) (taskId : RknpuQueueTaskId) (timeNs : UInt64) :
    Descends s (s.markDispatched taskId timeNs) := by
  refine .modify (fun t => ?_) rfl
  unfold RknpuQueueTask.markFirstDispatch
  split <;> rfl

theorem descends_failDispatch (s : NpuSchedulerState W) (coreSlot : Nat) (binding : CoreRunBinding) (err : RknpuError) :
    Descends s (s.failDispatch coreSlot binding err).2 :=
  .trans (.modify (fun t => RknpuQueueTask.frame_failDispatch t binding.laneSlot err) rfl) (descends_reclassifyTask _ _)

theorem descends_harvestCompletion (s : NpuSchedulerState W) (completion : CoreCompletion) (timeNs : UInt64) :
    Descends s (s.harvestCompletion completion timeNs).2 := by
  have hharvest := harvestCompletion_harvested s completion timeNs
  generalize s.harvestCompletion completion timeNs = r at hharvest
  cases hharvest with
  | idle _ => exact .of_tasks rfl
  | orphaned _ _ => exact .of_tasks rfl
  | @filed binding task _ htask =>
      have hrecord : Descends s (s.record completion binding task) :=
        .insert htask (RknpuQueueTask.frame_recordCompletion _ _ _ _) rfl
      exact (hrecord.trans (descends_reclassifyTask _ _)).trans (.of_tasks rfl)

theorem descends_harvestCompletions (s : NpuSchedulerState W) (completions : List (CoreCompletion × UInt64)) :
    Descends s (s.harvestCompletions completions).2 := by
  induction completions generalizing s with
  | nil => exact .of_tasks rfl
  | cons c completions ih =>
      rw [harvestCompletions_cons]
      exact (descends_harvestCompletion s c.1 c.2).trans (ih _)

theorem tasks_wakeTask (s : NpuSchedulerState W) (prepareError : Bool) (taskId : RknpuQueueTaskId) :
    (s.wakeTask prepareError taskId).2.tasks = s.tasks := by
  unfold wakeTask
  cases prepareError with
  | true => dsimp only; split <;> rfl
  | false => dsimp only; split <;> rfl

theorem tasks_wakeTerminalTasks (s : NpuSchedulerState W) (prepareError : Bool) (taskIds : List RknpuQueueTaskId) :
    (s.wakeTerminalTasks prepareError taskIds).2.tasks = s.tasks := by
  induction taskIds generalizing s with
  | nil => rfl
  | cons id taskIds ih => exact (ih _).trans (tasks_wakeTask s prepareError id)

theorem descends_abortWait (s : NpuSchedulerState W) (taskId : RknpuQueueTaskId) : Descends s (s.abortWait taskId) := by
  rcases abortWait_cases s taskId with he | ⟨complete, _, he⟩
  · rw [he]
    exact .of_tasks rfl
  · rw [he]
    have hmarked : Descends s (s.interrupt taskId) :=
      .modify (f := ({ · with lastError := some .interrupted })) (fun _ => rfl) rfl
    exact (hmarked.trans (descends_reclassifyTask _ _)).trans (.of_tasks rfl)

theorem descends_takeTerminalSubmit (s : NpuSchedulerState W) (taskId : RknpuQueueTaskId) :
    Descends s (s.takeTerminalSubmit taskId).2 := by
  unfold takeTerminalSubmit
  split
  · exact .of_tasks rfl
  · exact .of_tasks rfl

end NpuSchedulerState

/-! ## Every run -/

/-- The record of this id has the frame of a submit that was enqueued with the id. -/
def EnqueuedAs (hist : List Event) (taskId : RknpuQueueTaskId) (t : RknpuQueueTask) : Prop :=
  ∃ queued timeNs, .enqueued taskId queued timeNs ∈ hist ∧ t.frame = (RknpuQueueTask.new taskId queued).frame

/-- Live records come from enqueued submits, and a dispatch that is being tried is on a core that its submit allows. -/
structure Sys.Originated (y : Sys W) : Prop where
  live : ∀ (id : RknpuQueueTaskId) (t : RknpuQueueTask), y.state.tasks[id]? = some t → EnqueuedAs y.hist id t
  dispatching : ∀ setup, y.worker = .dispatching setup → setup.coreSlot < npuMaxCores ∧
    ∃ t : RknpuQueueTask, EnqueuedAs y.hist setup.binding.taskId t ∧ t.allowsCore setup.coreSlot = true

theorem EnqueuedAs.mono {hist hist' : List Event} {taskId : RknpuQueueTaskId} {t t' : RknpuQueueTask}
    (h : EnqueuedAs hist taskId t) (hsub : hist <+: hist') (hframe : t'.frame = t.frame) : EnqueuedAs hist' taskId t' := by
  obtain ⟨queued, timeNs, hmem, he⟩ := h
  exact ⟨queued, timeNs, hsub.subset hmem, hframe.trans he⟩

namespace Sys.Originated

variable {y y' : Sys W}

theorem init : (Sys.init : Sys W).Originated where
  live := by
    intro id t ht
    simp [Sys.init, NpuSchedulerState.new] at ht
  dispatching := nofun

/-- A step that enqueues nothing and starts no dispatch. -/
theorem of_descends (h : y.Originated) (hhist : y.hist <+: y'.hist) (hdesc : y.state.Descends y'.state)
    (hworker : ∀ setup, y'.worker = .dispatching setup → y.worker = .dispatching setup) : y'.Originated where
  live id t' ht' := by
    obtain ⟨t, ht, hframe⟩ := hdesc id t' ht'
    exact (h.live id t ht).mono hhist hframe
  dispatching setup hw := by
    obtain ⟨hcore, t, ht, hallow⟩ := h.dispatching setup (hworker setup hw)
    exact ⟨hcore, t, ht.mono hhist rfl, hallow⟩

theorem enqueue (h : y.Originated) (queued : RknpuQueuedSubmit) (waiter : W) (timeNs : UInt64) :
    (y.enqueue queued waiter timeNs).Originated where
  live id t ht := by
    by_cases hid : id = y.nextQueueTaskId
    · subst hid
      obtain ⟨t₀, ht₀, rfl⟩ := Option.map_eq_some_iff.mp (Std.ExtTreeMap.getElem?_modify_self.symm.trans ht)
      cases Std.ExtTreeMap.getElem?_insert_self.symm.trans ht₀
      exact ⟨queued, timeNs, List.mem_append_right _ (List.mem_singleton_self _), rfl⟩
    · rw [Sys.tasks_enqueue_of_ne hid] at ht
      exact (h.live id t ht).mono (List.prefix_append _ _) rfl
  dispatching setup hw := by
    obtain ⟨hcore, t, ht, hallow⟩ := h.dispatching setup hw
    exact ⟨hcore, t, ht.mono (List.prefix_append _ _) rfl, hallow⟩

theorem decide (h : y.Originated) (hwf : y.state.ready.WF) : y.decide.Originated := by
  have hdec := NpuSchedulerState.dispatchDecision_decided hwf
  have hdesc := hdec.descends
  unfold Sys.decide
  cases hr : y.state.dispatchDecision with
  | mk setup s' =>
      rw [hr] at hdec hdesc
      cases setup with
      | none => exact h.of_descends (List.prefix_refl _) hdesc fun _ h => h
      | some setup =>
          have hlive : ∀ t : RknpuQueueTask, y.state.tasks[setup.binding.taskId]? = some t →
              EnqueuedAs (y.hist ++ [.submit setup.binding.taskId (.reserved (setup.binding.slot setup.coreSlot))])
                setup.binding.taskId t := fun t ht => (h.live _ t ht).mono (List.prefix_append _ _) rfl
          refine ⟨fun id t' ht' => ?_, fun setup' hw' => ?_⟩
          · obtain ⟨t, ht, hframe⟩ := hdesc id t' ht'
            exact (h.live id t ht).mono (List.prefix_append _ _) hframe
          · cases hw'
            cases hdec with
            | continued hidle _ hcand =>
                exact ⟨(NpuSchedulerState.mem_idleCores.mp hidle).1, _, hlive _ hcand.live, hcand.allows⟩
            | promoted hidle _ _ hcand =>
                exact ⟨(NpuSchedulerState.mem_idleCores.mp hidle).1, _, hlive _ hcand.live, hcand.allows⟩

theorem step (h : y.Originated) (hqueued : y.state.Queued) {a : Act W} (hs : y.step a = some y') : y'.Originated := by
  have hhist := Sys.step_hist hs
  cases Sys.step_cases hs with
  | enqueue submit tasks t0Ns waiter timeNs => exact h.enqueue _ _ _
  | decide _ => exact h.decide hqueued.readyWF
  | launch timeNs hw => exact h.of_descends hhist (NpuSchedulerState.descends_markDispatched _ _ _) nofun
  | fail err hw => exact h.of_descends hhist (NpuSchedulerState.descends_failDispatch _ _ _ _) nofun
  | harvest completions hw => exact h.of_descends hhist (NpuSchedulerState.descends_harvestCompletions _ _) nofun
  | wake deviceError hw =>
      exact h.of_descends hhist (.of_tasks (NpuSchedulerState.tasks_wakeTerminalTasks _ _ _)) nofun
  | abort taskId => exact h.of_descends hhist (NpuSchedulerState.descends_abortWait _ _) fun _ h => h
  | take taskId => exact h.of_descends hhist (NpuSchedulerState.descends_takeTerminalSubmit _ _) fun _ h => h

end Sys.Originated

theorem Sys.originated_of_run {acts : List (Act W)} {y : Sys W} (hrun : (scheduler W).run acts = some y) :
    y.Originated :=
  Machine.run_induction (M := scheduler W) (P := fun _ y => y.Originated) Sys.Originated.init
    (fun _ _ _ _ hrun h hs => h.step (Sys.queued_of_run hrun) hs) hrun

end Rknpu.Service
