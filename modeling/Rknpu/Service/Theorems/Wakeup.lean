import Rknpu.Service.Lemmas.Worker
import Rknpu.Service.Theorems.Completion

/-!
# The worker does not sleep through work

A worker that waits was notified, or will be, whenever a core has published a status or an idle core could take a
task. The listener is registered before the harvest, so what arrives after the worker has looked finds it.
-/

namespace Rknpu.Service

open Queue Device

variable {W : Type}

/-- No live submit with a task to dispatch allows an unbound core. -/
def NpuSchedulerState.NothingFits (s : NpuSchedulerState W) : Prop :=
  ∀ coreSlot ∈ s.idleCores, ∀ (taskId : RknpuQueueTaskId) (t : RknpuQueueTask), s.tasks[taskId]? = some t →
    t.hasDispatchableTask = true → t.allowsCore coreSlot = false

/-- The worker looks at the core before it waits, or goes another round. -/
def WorkerPc.Sees (coreSlot : Nat) : WorkerPc → Prop
  | .unborn | .listen | .record _ | .wakeHarvested => True
  | .harvest next completed => next ≤ coreSlot ∨ completed ≠ []
  | .dispatch progress _ => progress = true
  | .check | .wait => False

namespace Driver

variable {d d' : Driver W}

/-- A notification has reached the listener or is on its way. -/
def Kicked (d : Driver W) : Prop := d.listener = some true ∨ 0 < d.enqueueKicks ∨ 0 < d.irqKicks

structure Awake (d : Driver W) : Prop where
  listening : d.listener = none → d.pc = .unborn ∨ d.pc = .listen
  published : ∀ c, d.dev.irqStatus c ≠ 0 → c < npuMaxCores ∧ (d.Kicked ∨ d.pc.Sees c)
  fits : d.pc = .check ∨ d.pc = .wait → d.Kicked ∨ d.sys.state.NothingFits

/-! ## Steps of the others -/

/-- A step that leaves the worker where it is and takes no notification back. -/
theorem Awake.others (h : d.Awake) (hpc : d'.pc = d.pc) (hlistener : d'.listener = d.listener)
    (hkicked : d.Kicked → d'.Kicked)
    (hstatus : ∀ c, d'.dev.irqStatus c ≠ 0 → d.dev.irqStatus c ≠ 0 ∨ (c < npuMaxCores ∧ d'.Kicked))
    (hfits : d'.Kicked ∨ (d.sys.state.NothingFits → d'.sys.state.NothingFits)) : d'.Awake := by
  refine ⟨?_, ?_, ?_⟩
  · rw [hpc, hlistener]
    exact h.listening
  · intro c hc
    rcases hstatus c hc with hbefore | ⟨hlt, hk⟩
    · rw [hpc]
      exact ⟨(h.published c hbefore).1, (h.published c hbefore).2.imp_left hkicked⟩
    · exact ⟨hlt, .inl hk⟩
  · rw [hpc]
    intro hend
    rcases hfits with hk | hkeep
    · exact .inl hk
    · exact (h.fits hend).imp hkicked hkeep

/-- A notification that finds no listener finds a worker that has yet to look. -/
theorem Awake.notified (h : d.Awake) (hpc : d'.pc = d.pc) (hdev : d'.dev = d.dev)
    (hlistener : d'.listener = d.listener.map fun _ => true) : d'.Awake := by
  cases hl : d.listener with
  | none =>
      rw [hl] at hlistener
      have hstart := h.listening hl
      refine ⟨fun _ => hpc ▸ hstart, fun c hc => ?_, ?_⟩
      · rw [hdev] at hc
        refine ⟨(h.published c hc).1, .inr ?_⟩
        rw [hpc]
        rcases hstart with hpc₀ | hpc₀
        · rw [hpc₀]
          trivial
        · rw [hpc₀]
          trivial
      · rw [hpc]
        rcases hstart with hpc₀ | hpc₀
        · rw [hpc₀]
          rintro (hend | hend) <;> cases hend
        · rw [hpc₀]
          rintro (hend | hend) <;> cases hend
  | some b =>
      rw [hl] at hlistener
      have hk : d'.Kicked := .inl hlistener
      refine ⟨fun hnone => ?_, fun c hc => ?_, fun _ => .inl hk⟩
      · rw [hlistener] at hnone
        cases hnone
      · rw [hdev] at hc
        exact ⟨(h.published c hc).1, .inl hk⟩

end Driver

theorem NpuSchedulerState.NothingFits.abortWait {s : NpuSchedulerState W} (h : s.NothingFits)
    (taskId : RknpuQueueTaskId) : (s.abortWait taskId).NothingFits := by
  intro coreSlot hidle id t ht hdisp
  rw [idleCores_of_coreBinding fun c => congrArg (·[c]?) (abortWait_coreBinding s taskId)] at hidle
  obtain ⟨e, hnext⟩ := Option.isSome_iff_exists.mp hdisp
  exact h coreSlot hidle id t (of_tasks_abortWait ht (RknpuQueueTask.lastError_of_nextDispatchableTask hnext)) hdisp

theorem NpuSchedulerState.NothingFits.takeTerminalSubmit {s : NpuSchedulerState W} (h : s.NothingFits)
    (taskId : RknpuQueueTaskId) : (s.takeTerminalSubmit taskId).2.NothingFits := by
  unfold NpuSchedulerState.takeTerminalSubmit
  split
  · exact h
  · exact h

/-- No ioctl publishes a status. -/
theorem irqStatus_runCommand {dev : RknpuDev} {cmd : Command} {c : Nat} (h : (runCommand dev cmd).irqStatus c ≠ 0) :
    dev.irqStatus c ≠ 0 := by
  cases cmd with
  | action flags value regs =>
      unfold runCommand at h
      dsimp only at h
      split at h
      · exact h
      · rename_i action _
        by_cases hreset : action = .actReset
        · subst hreset
          exact absurd (dev.irqStatus_softReset c) h
        · rwa [RknpuDev.irqStatus, RknpuDev.base_action dev regs value hreset] at h
  | memCreate args data =>
      unfold runCommand at h
      dsimp only at h
      split at h
      · exact h
      · exact h
  | _ => exact h

namespace Driver

variable {d d' : Driver W}

/-! ## Steps of the worker -/

theorem Awake.again (h : d.Awake) (sys : Sys W) : ({ d with sys }.again).Awake := by
  refine ⟨fun _ => .inr rfl, fun c hc => ⟨(h.published c hc).1, .inr trivial⟩, ?_⟩
  rintro (hend | hend) <;> cases hend

/-- The worker moves to a position that looks at the cores or goes another round. -/
theorem Awake.moved (h : d.Awake) {sys : Sys W} {pc : WorkerPc} (hlistener : d.listener ≠ none)
    (hsees : ∀ c, pc.Sees c) : ({ d with sys, pc } : Driver W).Awake := by
  refine ⟨fun hnone => (hlistener hnone).elim, fun c hc => ⟨(h.published c hc).1, .inr (hsees c)⟩, ?_⟩
  rintro (rfl | rfl)
  · exact (hsees 0).elim
  · exact (hsees 0).elim

theorem Awake.harvestStep (h : d.Awake) {coreSlot : Nat} {completed : List CoreCompletion}
    (hpc : d.pc = .harvest coreSlot completed) (hlistener : d.listener ≠ none) :
    (d.harvestStep coreSlot completed).Awake := by
  have hpub : ∀ c, d.dev.irqStatus c ≠ 0 → c < npuMaxCores ∧ (d.Kicked ∨ coreSlot ≤ c ∨ completed ≠ []) := by
    intro c hc
    have hc' := h.published c hc
    rwa [hpc] at hc'
  unfold Driver.harvestStep
  split
  · rcases d.dev.takeCompletion_cases coreSlot with ⟨hzero, he⟩ | ⟨core, _, _, he⟩
    · rw [he]
      refine ⟨fun hnone => (hlistener hnone).elim, fun c hc => ⟨(hpub c hc).1, ?_⟩, ?_⟩
      · -- The core just looked at has published nothing.
        refine (hpub c hc).2.imp_right (Or.imp_left fun hle => ?_)
        refine Nat.lt_of_le_of_ne hle ?_
        rintro rfl
        exact hc hzero
      · rintro (hend | hend) <;> cases hend
    · rw [he]
      refine ⟨fun hnone => (hlistener hnone).elim, fun c hc => ?_, ?_⟩
      · exact ⟨(hpub c (RknpuDev.irqStatus_of_clearCompletionShadow hc).2).1,
          .inr (.inr (List.append_ne_nil_of_right_ne_nil _ (List.cons_ne_nil _ _)))⟩
      · rintro (hend | hend) <;> cases hend
  · rename_i hdone
    split
    · rename_i hempty
      refine ⟨fun hnone => (hlistener hnone).elim, fun c hc => ⟨(hpub c hc).1, ?_⟩, ?_⟩
      · -- Every core that can publish was looked at.
        rcases (hpub c hc).2 with hk | hle | hne
        · exact .inl hk
        · have hlt := RknpuDev.lt_length_of_irqStatus hc
          have hlt' := (hpub c hc).1
          exact (hdone (lt_of_le_of_lt hle (lt_min hlt hlt'))).elim
        · exact (hne (List.isEmpty_iff.mp hempty)).elim
      · rintro (hend | hend) <;> cases hend
    · exact h.moved hlistener fun _ => trivial

theorem Awake.decideStep (h : d.Awake) {progress : Bool} (hpc : d.pc = .dispatch progress .asked)
    (hlistener : d.listener ≠ none) (hqueued : d.sys.state.Queued) : (d.decideStep progress).Awake := by
  have hpub : ∀ c, d.dev.irqStatus c ≠ 0 → c < npuMaxCores ∧ (d.Kicked ∨ progress = true) := by
    intro c hc
    have hc' := h.published c hc
    rwa [hpc] at hc'
  unfold Driver.decideStep
  split
  · refine ⟨fun hnone => (hlistener hnone).elim, h.published, ?_⟩
    rw [hpc]
    rintro (hend | hend) <;> cases hend
  · rename_i hnone
    split
    · exact h.again _
    · rename_i hidle
      refine ⟨fun hno => (hlistener hno).elim, fun c hc => ⟨(hpub c hc).1, ?_⟩, fun _ => .inr ?_⟩
      · exact .inl ((hpub c hc).2.resolve_right hidle)
      · intro coreSlot hcore taskId t ht hdisp
        rw [Sys.decide_state hqueued hnone] at hcore ht
        exact hqueued.nothing_fits hnone hcore ht hdisp

theorem Awake.checkStep (h : d.Awake) (hpc : d.pc = .check) (hlistener : d.listener ≠ none) : d.checkStep.Awake := by
  have hpub : ∀ c, d.dev.irqStatus c ≠ 0 → c < npuMaxCores ∧ (d.Kicked ∨ False) := by
    intro c hc
    have hc' := h.published c hc
    rwa [hpc] at hc'
  have hwait : ({ d with pc := .wait } : Driver W).Awake :=
    ⟨fun hnone => (hlistener hnone).elim, hpub, fun _ => h.fits (.inl hpc)⟩
  unfold Driver.checkStep
  split
  · exact hwait
  · split
    · exact hwait
    · exact h.again d.sys

/-- Clearing a status leaves nothing more to see. -/
theorem Awake.cleared (h : d.Awake) {progress : Bool} {step step' : SubmitStep} {coreSlot : Nat}
    (hpc : d.pc = .dispatch progress step) (hlistener : d.listener ≠ none) :
    ({ d with dev := d.dev.clearCompletionShadow coreSlot, pc := .dispatch progress step' } : Driver W).Awake := by
  refine ⟨fun hnone => (hlistener hnone).elim, fun c hc => ?_, ?_⟩
  · have hc' := h.published c (RknpuDev.irqStatus_of_clearCompletionShadow hc).2
    rwa [hpc] at hc'
  · rintro (hend | hend) <;> cases hend

theorem Awake.worker (h : d.Awake) (hqueued : d.sys.state.Queued) {act : WorkerAct} (hact : act ≠ .harvestRefused)
    (hs : WorkerStep d act d') : d'.Awake := by
  have hlistener : ∀ {pc}, d.pc = pc → pc ≠ .unborn → pc ≠ .listen → d.listener ≠ none := by
    rintro _ rfl hu hl hnone
    exact (h.listening hnone).elim hu hl
  cases hs with
  | listen hpc =>
      refine ⟨nofun, fun c hc => ⟨(h.published c hc).1, .inr (.inl (Nat.zero_le _))⟩, ?_⟩
      rintro (hend | hend) <;> cases hend
  | harvestRefused _ => exact (hact rfl).elim
  | harvest hpc => exact h.harvestStep hpc (hlistener hpc nofun nofun)
  | record hpc _ => exact h.moved (hlistener hpc nofun nofun) fun _ => trivial
  | wakeHarvested hpc _ => exact h.moved (hlistener hpc nofun nofun) fun _ => rfl
  | decide hpc _ => exact h.decideStep hpc (hlistener hpc nofun nofun) hqueued
  | refuse hpc _ =>
      refine ⟨h.listening, h.published, ?_⟩
      rw [hpc]
      rintro (hend | hend) <;> cases hend
  | wakeFailed hpc _ =>
      refine ⟨h.listening, h.published, ?_⟩
      rw [hpc]
      rintro (hend | hend) <;> cases hend
  | drain hpc _ => exact h.cleared hpc (hlistener hpc nofun nofun)
  | clear hpc _ => exact h.cleared hpc (hlistener hpc nofun nofun)
  | launch hpc _ => exact h.moved (hlistener hpc nofun nofun) fun _ => rfl
  | check hpc => exact h.checkStep hpc (hlistener hpc nofun nofun)
  | wake _ _ => exact h.again d.sys

/-! ## Every step -/

theorem Awake.irqStep (h : d.Awake) {coreSlot : Nat} (hcore : coreSlot < npuMaxCores) (intStatus : UInt32)
    (irqTimeNs : UInt64) : (d.irqStep coreSlot intStatus irqTimeNs).Awake := by
  refine h.others rfl rfl ?_ (fun c hc => ?_) (.inr id)
  · refine Or.imp_right (Or.imp_right fun hpos => ?_)
    unfold Driver.irqStep
    dsimp only
    split <;> omega
  · unfold Driver.irqStep at hc ⊢
    dsimp only at hc ⊢
    rw [RknpuDev.irqStatus_handleInterruptAt] at hc
    split at hc
    · rename_i hsame
      subst hsame
      by_cases hzero : (d.dev.handleInterruptAt coreSlot intStatus irqTimeNs).1 = 0
      · rw [hzero, UInt32.or_zero] at hc
        exact .inl hc
      · refine .inr ⟨hcore, .inr (.inr ?_)⟩
        dsimp only
        rw [if_pos hzero]
        exact Nat.succ_pos _
    · exact .inl hc

theorem Awake.step (h : d.Awake) (hqueued : d.sys.state.Queued) {a : DriverAct W}
    (ha : a ≠ .worker .harvestRefused) (hs : d.step a = some d') : d'.Awake := by
  cases a with
  | enqueue submit tasks t0Ns waiter timeNs =>
      cases hs
      have hkicked : 0 < d.enqueueKicks + 1 := Nat.succ_pos _
      exact h.others rfl rfl (fun _ => .inr (.inl hkicked)) (fun _ hc => .inl hc) (.inl (.inr (.inl hkicked)))
  | spawn =>
      obtain ⟨⟨_, hpc⟩, hs⟩ := Option.ite_none_right_eq_some.mp hs
      cases hs
      refine ⟨fun _ => .inr rfl, fun c hc => ⟨(h.published c hc).1, .inr trivial⟩, ?_⟩
      rintro (hend | hend) <;> cases hend
  | enqueueNotify =>
      obtain ⟨_, hs⟩ := Option.ite_none_right_eq_some.mp hs
      cases hs
      exact h.notified rfl rfl rfl
  | abort taskId =>
      cases hs
      exact h.others rfl rfl id (fun _ hc => .inl hc) (.inr fun hfits => hfits.abortWait taskId)
  | take taskId =>
      cases hs
      exact h.others rfl rfl id (fun _ hc => .inl hc) (.inr fun hfits => hfits.takeTerminalSubmit taskId)
  | irq coreSlot intStatus irqTimeNs =>
      obtain ⟨hcore, hs⟩ := Option.ite_none_right_eq_some.mp hs
      cases hs
      exact h.irqStep hcore intStatus irqTimeNs
  | irqNotify =>
      obtain ⟨_, hs⟩ := Option.ite_none_right_eq_some.mp hs
      cases hs
      exact h.notified rfl rfl rfl
  | command cmd =>
      cases hs
      exact h.others rfl rfl id (fun _ hc => .inl (irqStatus_runCommand hc)) (.inr id)
  | worker act => exact h.worker hqueued (fun he => ha (congrArg _ he)) (workerStep_cases hs)

theorem Awake.init (coreCount : Nat) (data : RknpuData) : (Driver.init coreCount data : Driver W).Awake := by
  refine ⟨fun _ => .inl rfl, fun c hc => ?_, ?_⟩
  · exact absurd (RknpuDev.irqStatus_new coreCount c data) hc
  · rintro (hend | hend) <;> cases hend

/-- The worker sleeps, and every notification was delivered. -/
structure Blocked (d : Driver W) : Prop where
  pc : d.pc = .wait
  listener : d.listener = some false
  enqueues : d.enqueueKicks = 0
  irqs : d.irqKicks = 0

end Driver

/-- While harvests can access the device, a worker that sleeps with all notifications delivered has no completion to
harvest and no task to dispatch. -/
theorem no_lost_wakeup {coreCount : Nat} {data : RknpuData} {acts : List (DriverAct W)} {d : Driver W}
    (hrun : (driver W coreCount data).run acts = some d) (haccess : .worker .harvestRefused ∉ acts)
    (hblocked : d.Blocked) : (∀ coreSlot, d.dev.irqStatus coreSlot = 0) ∧ d.sys.state.NothingFits := by
  have hawake : .worker .harvestRefused ∉ acts → d.Awake := by
    refine Machine.run_induction (M := driver W coreCount data)
      (P := fun as d => .worker .harvestRefused ∉ as → d.Awake) (fun _ => Driver.Awake.init coreCount data) ?_ hrun
    intro as d a d' hrun' h hs hacts
    rw [List.mem_append, List.mem_singleton, not_or] at hacts
    exact (h hacts.1).step (Driver.queued_of_run hrun') (Ne.symm hacts.2) hs
  have h := hawake haccess
  have hquiet : ¬ d.Kicked := by
    rintro (hl | hk | hk)
    · rw [hblocked.listener] at hl
      cases hl
    · rw [hblocked.enqueues] at hk
      cases hk
    · rw [hblocked.irqs] at hk
      cases hk
  refine ⟨fun coreSlot => ?_, (h.fits (.inr hblocked.pc)).resolve_left hquiet⟩
  by_contra hne
  have hsees := (h.published coreSlot hne).2.resolve_left hquiet
  rw [hblocked.pc] at hsees
  exact hsees

/-- The worker sleeps while its only task runs on core 0. -/
def sleepingRun : List (DriverAct Unit) :=
  [.enqueue (twoLanes 1 ⟨0, 1⟩ ⟨0, 0⟩) [plainTask] 0 () 0, .spawn, .enqueueNotify] ++
    ([.listen, .harvest, .harvest, .harvest, .harvest, .decide, .drain, .clear, .launch 0, .decide,
      .listen, .harvest, .harvest, .harvest, .harvest, .decide, .check] : List WorkerAct).map .worker

theorem no_lost_wakeup_inflight : ∃ d : Driver Unit,
    (driver Unit 3 RknpuData.new3588).run sleepingRun = some d ∧ d.Blocked ∧
      (∀ coreSlot, d.dev.irqStatus coreSlot = 0) ∧ d.sys.state.NothingFits := by
  obtain ⟨d, hrun, h⟩ : ∃ d : Driver Unit, (driver Unit 3 RknpuData.new3588).run sleepingRun = some d ∧
      decide (d.pc = .wait ∧ d.listener = some false ∧ d.enqueueKicks = 0 ∧ d.irqKicks = 0) = true :=
    (Option.any_eq_true _ _).mp (by decide +kernel)
  obtain ⟨hpc, hlistener, henqueues, hirqs⟩ := of_decide_eq_true h
  have hblocked : d.Blocked := ⟨hpc, hlistener, henqueues, hirqs⟩
  have haccess : .worker .harvestRefused ∉ sleepingRun := by simp [sleepingRun]
  exact ⟨d, hrun, hblocked, no_lost_wakeup hrun haccess hblocked⟩

end Rknpu.Service
