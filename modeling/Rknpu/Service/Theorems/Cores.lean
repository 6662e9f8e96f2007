import Rknpu.Device.Program
import Rknpu.Service.Ioctl
import Rknpu.Service.Lemmas.Origin
import Rknpu.Service.Lemmas.Worker
import Rknpu.Service.Theorems.Completion

/-!
# Devices with fewer cores

The scheduler hands out the slots of three cores whatever the device has. The driver refuses the others.
-/

namespace Rknpu.Service

open Queue Device

variable {W : Type}

/-- The mask names cores, and none from `coreCount` on. -/
def SelectsBelow (coreCount : Nat) (coreMask : UInt32) : Prop :=
  coreMask ≠ 0 ∧ ∀ c, coreCount ≤ c → coreMask &&& coreMaskFromIndex c = 0

/-- A submit whose mask is so restricted allows no other core. -/
theorem lt_of_selectsBelow {coreCount coreSlot : Nat} {t : RknpuQueueTask}
    (h : SelectsBelow coreCount t.submitMeta.coreMask) (hallow : t.allowsCore coreSlot = true) : coreSlot < coreCount := by
  by_contra hge
  simp only [RknpuQueueTask.allowsCore, Bool.or_eq_true, beq_iff_eq, bne_iff_ne] at hallow
  rcases hallow with hzero | hbit
  · exact h.1 hzero
  · exact hbit (h.2 coreSlot (Nat.le_of_not_lt hge))

/-- In every run, a dispatch goes to a core that the device has, if the device has all three or the submit's mask
names present cores only. -/
theorem dispatch_core_present {coreCount : Nat} {data : RknpuData} {acts : List (DriverAct W)} {d : Driver W}
    (hrun : (driver W coreCount data).run acts = some d) {setup : DispatchSetup}
    (hw : d.sys.worker = .dispatching setup)
    (hmask : npuMaxCores ≤ coreCount ∨ ∀ queued timeNs, .enqueued setup.binding.taskId queued timeNs ∈ d.sys.hist →
      SelectsBelow coreCount queued.submitMeta.coreMask) :
    setup.coreSlot < d.dev.base.length := by
  obtain ⟨sysActs, hsys⟩ := Driver.reaches_sys hrun
  obtain ⟨hcore, t, ⟨queued, timeNs, hmem, hframe⟩, hallow⟩ := (Sys.originated_of_run hsys).dispatching setup hw
  rw [Driver.length_of_run hrun]
  rcases hmask with hall | hmask
  · exact Nat.lt_of_lt_of_le hcore hall
  · have hmeta : t.submitMeta = queued.submitMeta := congrArg (fun f => f.2.1) hframe
    exact lt_of_selectsBelow (hmeta ▸ hmask queued timeNs hmem) hallow

/-- The dispatch that is being tried. -/
def WorkerPhase.setup? : WorkerPhase → Option DispatchSetup
  | .dispatching setup => some setup
  | _ => none

theorem WorkerPhase.eq_dispatching {w : WorkerPhase} {setup : DispatchSetup} (h : w.setup? = some setup) :
    w = .dispatching setup := by
  cases w with
  | dispatching setup' =>
      cases h
      rfl
  | free => cases h
  | waking taskIds prepareRead => cases h

/-- The worker of a device with one core up to its first decision for this submit. -/
def firstDecision (submit : RknpuSubmit) (tasks : List RknpuTask) : List (DriverAct Unit) :=
  [.enqueue submit tasks 0 () 0, .spawn] ++
    ([.listen, .harvest, .harvest, .decide] : List WorkerAct).map .worker

/-- The mask of a submit as it is enqueued. -/
def Event.enqueuedMask : Event → Option UInt32
  | .enqueued _ queued _ => some queued.submitMeta.coreMask
  | _ => none

theorem dispatch_core_present_masked : ∃ d : Driver Unit, ∃ setup,
    (driver Unit 1 RknpuData.new3588).run (firstDecision { twoLanes 1 ⟨0, 1⟩ ⟨0, 0⟩ with coreMask := 1 } [plainTask]) =
      some d ∧ d.sys.worker = .dispatching setup ∧ setup.coreSlot < d.dev.base.length := by
  obtain ⟨d, hrun, h⟩ : ∃ d : Driver Unit, (driver Unit 1 RknpuData.new3588).run
      (firstDecision { twoLanes 1 ⟨0, 1⟩ ⟨0, 0⟩ with coreMask := 1 } [plainTask]) = some d ∧
      (d.sys.worker.setup?.isSome && d.sys.hist.all fun e => e.enqueuedMask.all (· == 1)) = true :=
    (Option.any_eq_true _ _).mp (by decide +kernel)
  obtain ⟨hworker, hmask⟩ := Bool.and_eq_true_iff.mp h
  obtain ⟨setup, hsetup⟩ := Option.isSome_iff_exists.mp hworker
  have hw := WorkerPhase.eq_dispatching hsetup
  refine ⟨d, setup, hrun, hw, dispatch_core_present hrun hw (.inr fun queued timeNs hmem => ?_)⟩
  have hone : queued.submitMeta.coreMask = 1 := beq_iff_eq.mp (List.all_eq_true.mp hmask _ hmem)
  rw [hone]
  refine ⟨by decide, fun c hc => ?_⟩
  obtain rfl | rfl | hc : c = 1 ∨ c = 2 ∨ 3 ≤ c := by omega
  · rfl
  · rfl
  · obtain ⟨c, rfl⟩ := Nat.exists_eq_add_of_le' hc
    simp [coreMaskFromIndex]

/-- Another round of the same worker. -/
def secondDecision : List (DriverAct Unit) := ([.drain, .clear, .launch 0, .decide] : List WorkerAct).map .worker

/-- On a device with one core, the second task of a submit with mask 0 is sent to core 1 and refused. -/
theorem dispatch_to_absent_core : ∃ d : Driver Unit, ∃ setup,
    (driver Unit 1 RknpuData.new3588).run
      (firstDecision (twoLanes 2 ⟨0, 1⟩ ⟨1, 1⟩) [plainTask, plainTask] ++ secondDecision) = some d ∧
    checkSubmit (twoLanes 2 ⟨0, 1⟩ ⟨1, 1⟩) = .ok () ∧ (twoLanes 2 ⟨0, 1⟩ ⟨1, 1⟩).coreMask = 0 ∧
    d.sys.worker = .dispatching setup ∧ setup.coreSlot = 1 ∧ d.dev.base.length = 1 ∧
    d.dev.submitIoctrlStep 0 setup.coreSlot setup.submitFlags setup.taskTotal setup.taskArrayDmaAddress
      setup.binding.taskIndex setup.task = .error .invalidParameter := by
  obtain ⟨d, hrun, h⟩ : ∃ d : Driver Unit, (driver Unit 1 RknpuData.new3588).run
      (firstDecision (twoLanes 2 ⟨0, 1⟩ ⟨1, 1⟩) [plainTask, plainTask] ++ secondDecision) = some d ∧
      (d.sys.worker.setup?.any fun setup => decide (setup.coreSlot = 1 ∧ d.dev.base.length = 1)) = true :=
    (Option.any_eq_true _ _).mp (by decide +kernel)
  obtain ⟨setup, hsetup, hslot⟩ := (Option.any_eq_true _ _).mp h
  obtain ⟨hcore, hlength⟩ := of_decide_eq_true hslot
  refine ⟨d, setup, hrun, by decide, rfl, WorkerPhase.eq_dispatching hsetup, hcore, hlength, ?_⟩
  rw [RknpuDev.submitIoctrlStep, if_pos (by omega)]

end Rknpu.Service
