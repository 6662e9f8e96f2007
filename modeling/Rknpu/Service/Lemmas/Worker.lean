import Rknpu.Service.Lemmas.Measure
import Rknpu.Service.Lemmas.Queued
import Rknpu.Service.Worker

/-!
# Steps of the worker

What one step of the worker does, case by case, and the driver's scheduler as a run of the scheduler alone.
-/

namespace Rknpu.Service

open Queue Device

variable {W : Type}

namespace Driver

variable {d d' : Driver W}

/-! ## The steps, case by case -/

/-- One step of the worker from the position it stands at. -/
inductive WorkerStep (d : Driver W) : WorkerAct → Driver W → Prop where
  | listen : d.pc = .listen → WorkerStep d .listen { d with listener := some false, pc := .harvest 0 [] }
  | harvestRefused : d.pc = .harvest 0 [] → WorkerStep d .harvestRefused { d with pc := .dispatch false .asked }
  | harvest {coreSlot : Nat} {completed : List CoreCompletion} :
      d.pc = .harvest coreSlot completed → WorkerStep d .harvest (d.harvestStep coreSlot completed)
  | record {completed : List CoreCompletion} {timeNs : CoreCompletion → UInt64} {sys : Sys W} :
      d.pc = .record completed → d.sys.step (.harvest (completed.map fun c => (c, timeNs c))) = some sys →
      WorkerStep d (.record timeNs) { d with sys, pc := .wakeHarvested }
  | wakeHarvested {deviceError : Bool} {sys : Sys W} :
      d.pc = .wakeHarvested → d.sys.step (.wake deviceError) = some sys →
      WorkerStep d (.wakeHarvested deviceError) { d with sys, pc := .dispatch true .asked }
  | decide {progress : Bool} :
      d.pc = .dispatch progress .asked → d.sys.worker = .free → WorkerStep d .decide (d.decideStep progress)
  | refuse {progress : Bool} {err : RknpuError} {sys : Sys W} :
      d.pc = .dispatch progress .asked → d.sys.step (.fail err) = some sys →
      WorkerStep d (.refuse err) { d with sys }
  | wakeFailed {progress : Bool} {sys : Sys W} :
      d.pc = .dispatch progress .asked → d.sys.step (.wake false) = some sys → WorkerStep d .wakeFailed { d with sys }
  | drain {progress : Bool} {setup : DispatchSetup} :
      d.pc = .dispatch progress .asked → d.sys.worker = .dispatching setup →
      WorkerStep d .drain
        { d with dev := d.dev.clearCompletionShadow setup.coreSlot, pc := .dispatch progress .drained }
  | clear {progress : Bool} {setup : DispatchSetup} :
      d.pc = .dispatch progress .drained → d.sys.worker = .dispatching setup →
      WorkerStep d .clear
        { d with dev := d.dev.clearCompletionShadow setup.coreSlot, pc := .dispatch progress .cleared }
  | launch {progress : Bool} {timeNs : UInt64} {sys : Sys W} :
      d.pc = .dispatch progress .cleared → d.sys.step (.launch timeNs) = some sys →
      WorkerStep d (.launch timeNs) { d with sys, pc := .dispatch true .asked }
  | check : d.pc = .check → WorkerStep d .check d.checkStep
  | wake : d.pc = .wait → d.listener = some true → WorkerStep d .wake d.again

theorem workerStep_cases {act : WorkerAct} (h : d.workerStep d.pc act = some d') : WorkerStep d act d' := by
  unfold workerStep at h
  split at h
  · rename_i hpc
    cases h
    exact .listen hpc
  · rename_i hpc
    cases h
    exact .harvestRefused hpc
  · rename_i hpc
    cases h
    exact .harvest hpc
  · rename_i hpc
    obtain ⟨sys, hsys, rfl⟩ := Option.map_eq_some_iff.mp h
    exact .record hpc hsys
  · rename_i hpc
    obtain ⟨sys, hsys, rfl⟩ := Option.map_eq_some_iff.mp h
    exact .wakeHarvested hpc hsys
  · rename_i hpc
    split at h
    · rename_i hfree
      cases h
      exact .decide hpc hfree
    · cases h
  · rename_i hpc
    obtain ⟨sys, hsys, rfl⟩ := Option.map_eq_some_iff.mp h
    exact .refuse hpc hsys
  · rename_i hpc
    obtain ⟨sys, hsys, rfl⟩ := Option.map_eq_some_iff.mp h
    exact .wakeFailed hpc hsys
  · rename_i hpc
    split at h
    · rename_i hw
      split at h
      · cases h
        exact .drain hpc hw
      · cases h
    · cases h
  · rename_i hpc
    split at h
    · rename_i hw
      cases h
      exact .clear hpc hw
    · cases h
  · rename_i hpc
    obtain ⟨sys, hsys, rfl⟩ := Option.map_eq_some_iff.mp h
    exact .launch hpc hsys
  · rename_i hpc
    cases h
    exact .check hpc
  · rename_i hpc
    split at h
    · rename_i hnotified
      cases h
      exact .wake hpc hnotified
    · cases h
  · cases h

/-! ## The scheduler inside the driver -/

theorem decideStep_sys (d : Driver W) (progress : Bool) : (d.decideStep progress).sys = d.sys.decide := by
  unfold decideStep
  split
  · rfl
  · split <;> rfl

theorem harvestStep_sys (d : Driver W) (coreSlot : Nat) (completed : List CoreCompletion) :
    (d.harvestStep coreSlot completed).sys = d.sys := by
  unfold harvestStep
  split
  · split <;> rfl
  · split <;> rfl

theorem checkStep_sys (d : Driver W) : d.checkStep.sys = d.sys := by
  unfold checkStep
  split
  · rfl
  · split <;> rfl

/-- A step of the worker is a step of the scheduler, or leaves it alone. -/
theorem WorkerStep.sys {act : WorkerAct} (h : WorkerStep d act d') :
    d'.sys = d.sys ∨ ∃ a, d.sys.step a = some d'.sys := by
  cases h with
  | listen _ => exact .inl rfl
  | harvestRefused _ => exact .inl rfl
  | harvest _ => exact .inl (harvestStep_sys ..)
  | record _ hsys => exact .inr ⟨_, hsys⟩
  | wakeHarvested _ hsys => exact .inr ⟨_, hsys⟩
  | decide _ hfree => exact .inr ⟨.decide, (decideStep_sys d _).symm ▸ if_pos hfree⟩
  | refuse _ hsys => exact .inr ⟨_, hsys⟩
  | wakeFailed _ hsys => exact .inr ⟨_, hsys⟩
  | drain _ _ => exact .inl rfl
  | clear _ _ => exact .inl rfl
  | launch _ hsys => exact .inr ⟨_, hsys⟩
  | check _ => exact .inl (checkStep_sys d)
  | wake _ _ => exact .inl rfl

theorem step_sys {a : DriverAct W} (h : d.step a = some d') :
    d'.sys = d.sys ∨ ∃ act, d.sys.step act = some d'.sys := by
  cases a with
  | enqueue submit tasks t0Ns waiter timeNs =>
      cases h
      exact .inr ⟨.enqueue submit tasks t0Ns waiter timeNs, rfl⟩
  | spawn =>
      obtain ⟨_, h⟩ := Option.ite_none_right_eq_some.mp h
      cases h
      exact .inl rfl
  | enqueueNotify =>
      obtain ⟨_, h⟩ := Option.ite_none_right_eq_some.mp h
      cases h
      exact .inl rfl
  | abort taskId =>
      cases h
      exact .inr ⟨.abort taskId, rfl⟩
  | take taskId =>
      cases h
      exact .inr ⟨.take taskId, rfl⟩
  | irq coreSlot intStatus irqTimeNs =>
      obtain ⟨_, h⟩ := Option.ite_none_right_eq_some.mp h
      cases h
      exact .inl rfl
  | irqNotify =>
      obtain ⟨_, h⟩ := Option.ite_none_right_eq_some.mp h
      cases h
      exact .inl rfl
  | command cmd =>
      cases h
      exact .inl rfl
  | worker act => exact (workerStep_cases h).sys

/-- The scheduler of a driver state is reached by the scheduler alone. -/
theorem reaches_sys {coreCount : Nat} {data : RknpuData} {acts : List (DriverAct W)}
    (hrun : (driver W coreCount data).run acts = some d) : (scheduler W).Reaches (scheduler W).init d.sys := by
  refine Machine.run_induction (M := driver W coreCount data) (P := fun _ d => (scheduler W).Reaches _ d.sys)
    (Machine.Reaches.refl _) ?_ hrun
  intro _ d a d' _ h hs
  rcases step_sys hs with he | ⟨act, hact⟩
  · rw [he]
    exact h
  · exact h.step hact

theorem queued_of_run {coreCount : Nat} {data : RknpuData} {acts : List (DriverAct W)}
    (hrun : (driver W coreCount data).run acts = some d) : d.sys.state.Queued := by
  obtain ⟨sysActs, hsys⟩ := reaches_sys hrun
  exact Sys.queued_of_run hsys

/-! ## The device inside the driver -/

/-- The worker leaves the device alone, takes the status of the core that its harvest turns to, or clears the status of
the core that it dispatches to. -/
theorem WorkerStep.dev {act : WorkerAct} (h : WorkerStep d act d') :
    d'.dev = d.dev ∨
    (∃ next completed, act = .harvest ∧ d.pc = .harvest next completed ∧ d'.dev = d.dev.clearCompletionShadow next) ∨
    ∃ setup progress step, d.sys.worker = .dispatching setup ∧ d.pc = .dispatch progress step ∧ step ≠ .cleared ∧
      d'.dev = d.dev.clearCompletionShadow setup.coreSlot := by
  cases h with
  | @harvest next completed hpc =>
      unfold harvestStep
      split
      · rcases d.dev.takeCompletion_cases next with ⟨_, he⟩ | ⟨core, _, _, he⟩
        · rw [he]
          exact .inl rfl
        · rw [he]
          exact .inr (.inl ⟨next, completed, rfl, hpc, rfl⟩)
      · split <;> exact .inl rfl
  | decide _ _ =>
      unfold decideStep
      split
      · exact .inl rfl
      · split <;> exact .inl rfl
  | check _ =>
      unfold checkStep
      split
      · exact .inl rfl
      · split <;> exact .inl rfl
  | drain hpc hw => exact .inr (.inr ⟨_, _, _, hw, hpc, nofun, rfl⟩)
  | clear hpc hw => exact .inr (.inr ⟨_, _, _, hw, hpc, nofun, rfl⟩)
  | _ => exact .inl rfl

theorem length_runCommand (dev : RknpuDev) (cmd : Command) : (runCommand dev cmd).base.length = dev.base.length := by
  cases cmd with
  | action flags value regs =>
      unfold runCommand
      dsimp only
      split
      · rfl
      · rename_i action _
        by_cases hreset : action = .actReset
        · subst hreset
          exact List.length_map ..
        · rw [RknpuDev.base_action dev regs value hreset]
  | memCreate args data =>
      unfold runCommand
      dsimp only
      split <;> rfl
  | _ => rfl

theorem step_length {a : DriverAct W} (h : d.step a = some d') : d'.dev.base.length = d.dev.base.length := by
  cases a with
  | enqueue submit tasks t0Ns waiter timeNs =>
      cases h
      rfl
  | irq coreSlot intStatus irqTimeNs =>
      obtain ⟨_, h⟩ := Option.ite_none_right_eq_some.mp h
      cases h
      exact RknpuDev.length_handleInterruptAt ..
  | command cmd =>
      cases h
      exact length_runCommand ..
  | worker act =>
      rcases (workerStep_cases h).dev with he | ⟨_, _, _, _, he⟩ | ⟨_, _, _, _, _, _, he⟩
      · rw [he]
      · rw [he]
        exact RknpuDev.length_modifyCore ..
      · rw [he]
        exact RknpuDev.length_modifyCore ..
  | abort taskId | take taskId =>
      cases h
      rfl
  | spawn | enqueueNotify | irqNotify =>
      obtain ⟨_, h⟩ := Option.ite_none_right_eq_some.mp h
      cases h
      rfl

/-- The device keeps its cores. -/
theorem length_of_run {coreCount : Nat} {data : RknpuData} {acts : List (DriverAct W)}
    (hrun : (driver W coreCount data).run acts = some d) : d.dev.base.length = coreCount := by
  refine Machine.run_induction (M := driver W coreCount data) (P := fun _ d => d.dev.base.length = coreCount) ?_ ?_ hrun
  · exact List.length_replicate
  · exact fun _ _ _ _ _ h hs => (step_length hs).trans h

end Driver

end Rknpu.Service
