import Rknpu.Device.Program
import Rknpu.Service.Ioctl

/-!
# Values that reach the registers

The header and the descriptor are user input and are not checked before a core is programmed. The registers take 32 bits.
-/

namespace Rknpu.Device

open Queue

/-! ## Single values -/

/-- The amount is right exactly when the count of command words fits. -/
theorem registerAmounts_exact_iff (regcfgAmount : UInt32) :
    ((registerAmounts .new3588 regcfgAmount).1.toNat = (regcfgAmount.toNat + 4 + 1) / 2 - 1 ∧
      (registerAmounts .new3588 regcfgAmount).2 = false) ↔ regcfgAmount.toNat < 2 ^ 32 - 4 := by
  have hwords : (regcfgAmount + 4).toNat = (regcfgAmount.toNat + 4) % 2 ^ 32 := UInt32.toNat_add _ _
  have hunits : ((regcfgAmount + 4).divCeil 2).toNat = ((regcfgAmount.toNat + 4) % 2 ^ 32 + 1) / 2 := by
    rw [UInt32.toNat_divCeil_two, hwords]
  have hfits : (regcfgAmount.overflowingAdd 4).2 = false ↔ regcfgAmount.toNat + 4 < 2 ^ 32 :=
    UInt32.overflowingAdd_fits
  change (((regcfgAmount + 4).divCeil 2 - 1).toNat = _ ∧
    ((regcfgAmount.overflowingAdd 4).2 || (((regcfgAmount + 4).divCeil 2).overflowingSub 1).2) = false) ↔ _
  rw [Bool.or_eq_false_iff, hfits, UInt32.overflowingSub_fits]
  constructor
  · rintro ⟨-, hlt, -⟩
    omega
  · intro hlt
    have hone : (1 : UInt32) ≤ (regcfgAmount + 4).divCeil 2 := by
      rw [UInt32.le_iff_toNat_le, hunits]
      change 1 ≤ _
      omega
    refine ⟨?_, by omega, hone⟩
    rw [UInt32.toNat_sub_of_le _ _ hone, hunits]
    change _ - 1 = _
    omega

/-- The pointers of the three cores fit. -/
theorem sPointer_fits {coreIdx : Nat} (h : coreIdx < RknpuData.new3588.irqs) : (sPointer coreIdx).2 = false := by
  change coreIdx < 3 at h
  interval_cases coreIdx <;> rfl

/-- Cutting an address is harmless exactly when it is short. -/
theorem toNat_toUInt32_iff (addr : UInt64) : addr.toUInt32.toNat = addr.toNat ↔ addr.toNat < 2 ^ 32 := by
  rw [UInt64.toNat_toUInt32]
  exact Nat.mod_eq_iff_lt (by decide)

/-- The address of a descriptor, over the natural numbers. Zero stands for no array. -/
def descriptorAddr (taskDmaBase : UInt64) (taskIndex : UInt32) : Nat :=
  if taskDmaBase = 0 then 0 else taskDmaBase.toNat + 40 * taskIndex.toNat

theorem taskDmaAddr_exact_iff (taskDmaBase : UInt64) (taskIndex : UInt32) :
    ((taskDmaAddr taskDmaBase taskIndex).1.toUInt32.toNat = descriptorAddr taskDmaBase taskIndex ∧
      (taskDmaAddr taskDmaBase taskIndex).2 = false) ↔ descriptorAddr taskDmaBase taskIndex < 2 ^ 32 := by
  unfold taskDmaAddr descriptorAddr
  split
  · simp
  · have hindex := taskIndex.toNat_lt
    have hproduct : (UInt64.ofNat (taskIndex.toNat * rknpuTaskSize)).toNat = taskIndex.toNat * 40 :=
      UInt64.toNat_ofNat_of_lt (by simp only [rknpuTaskSize, UInt64.size]; omega)
    dsimp only
    rw [UInt64.toNat_toUInt32, UInt64.toNat_add, hproduct, decide_eq_false_iff_not, rknpuTaskSize]
    omega

/-! ## A whole step -/

/-- The parameter checks of the driver. -/
def AcceptsStep (dev : RknpuDev) (coreSlot : Nat) (taskTotal taskIndex : UInt32) : Prop :=
  coreSlot < dev.base.length ∧ taskTotal ≠ 0 ∧ taskIndex < taskTotal

/-- Later writes win, whatever came before. -/
theorem Programmed.value_append {before last : List (Reg × UInt32)} {overflow : Bool} {reg : Reg} {value : UInt32}
    (h : last.reverse.lookup reg = some value) : (⟨before ++ last, overflow⟩ : Programmed).value reg = some value := by
  rw [Programmed.value, List.reverse_append, List.lookup_append, h]
  rfl

theorem startExecuteOne_value (before : List (Reg × UInt32)) (overflow : Bool) (idx : Nat) (data : RknpuData)
    (task : RknpuTask) (submitFlags : UInt32) (addr : UInt64) :
    let p : Programmed := ⟨before ++ (startExecuteOne idx data task submitFlags addr).writes, overflow⟩
    p.value .pcBaseAddress = some task.regcmdAddr.toUInt32 ∧ p.value .pcTaskDmaBaseAddr = some addr.toUInt32 ∧
      p.value .pcRegisterAmounts = some (registerAmounts data task.regcfgAmount).1 := by
  dsimp only [startExecuteOne, submitPc]
  rw [← List.append_assoc]
  exact ⟨Programmed.value_append rfl, Programmed.value_append rfl, Programmed.value_append rfl⟩

/-- A step is refused by the checks, or programs the core. -/
theorem submitIoctrlStep_cases (dev : RknpuDev) (pending coreSlot : Nat) (submitFlags taskTotal : UInt32)
    (taskDmaBase : UInt64) (taskIndex : UInt32) (task : RknpuTask) :
    (¬ AcceptsStep dev coreSlot taskTotal taskIndex ∧
      dev.submitIoctrlStep pending coreSlot submitFlags taskTotal taskDmaBase taskIndex task =
        .error .invalidParameter) ∨
    (AcceptsStep dev coreSlot taskTotal taskIndex ∧ ∃ p task' dev',
      dev.submitIoctrlStep pending coreSlot submitFlags taskTotal taskDmaBase taskIndex task = .ok (p, task', dev') ∧
      p.value .pcBaseAddress = some task.regcmdAddr.toUInt32 ∧
      p.value .pcTaskDmaBaseAddr = some (taskDmaAddr taskDmaBase taskIndex).1.toUInt32 ∧
      p.value .pcRegisterAmounts = some (registerAmounts dev.data task.regcfgAmount).1 ∧
      p.overflow = ((taskDmaAddr taskDmaBase taskIndex).2 ||
        (startExecuteOne coreSlot dev.data task submitFlags (taskDmaAddr taskDmaBase taskIndex).1).overflow)) := by
  unfold RknpuDev.submitIoctrlStep AcceptsStep
  split
  · exact .inl ⟨fun h => by omega, rfl⟩
  · split
    · rename_i hzero
      exact .inl ⟨fun h => h.2.1 hzero, rfl⟩
    · split
      · rename_i hindex
        exact .inl ⟨fun h => UInt32.not_lt.mpr hindex h.2.2, rfl⟩
      · rename_i hcore hzero hindex
        obtain ⟨hregcmd, hdma, hamount⟩ := startExecuteOne_value
          (List.replicate (pending + 1) (.pcInterruptClear, intClearAll)) _ coreSlot dev.data task submitFlags
          (taskDmaAddr taskDmaBase taskIndex).1
        refine .inr ⟨⟨by omega, hzero, UInt32.not_le.mp hindex⟩, _, _, _, rfl, hregcmd, hdma, hamount, rfl⟩

/-- The registers hold the exact integers, and no operation on the way overflowed. -/
def Programmed.Exact (p : Programmed) (regcmdAddr descriptor amount : Nat) : Prop :=
  (p.value .pcBaseAddress).map UInt32.toNat = some regcmdAddr ∧
    (p.value .pcTaskDmaBaseAddr).map UInt32.toNat = some descriptor ∧
    (p.value .pcRegisterAmounts).map UInt32.toNat = some amount ∧ p.overflow = false

theorem startExecuteOne_overflow (coreSlot : Nat) (task : RknpuTask) (submitFlags : UInt32) (addr : UInt64) :
    (startExecuteOne coreSlot .new3588 task submitFlags addr).overflow =
      (registerAmounts .new3588 task.regcfgAmount).2 := by
  dsimp only [startExecuteOne, submitPc]
  split
  · rename_i hcore
    rw [sPointer_fits hcore, Bool.false_or]
    exact Bool.or_false _
  · rw [Bool.false_or]
    exact Bool.or_false _

/-- A step returns an error or writes the exact values, exactly when it is refused by the checks or the command address,
the address of the descriptor and the count of command words fit. -/
theorem submit_step_exact_iff (dev : RknpuDev) (hdata : dev.data = .new3588) (pending coreSlot : Nat)
    (submitFlags taskTotal : UInt32) (taskDmaBase : UInt64) (taskIndex : UInt32) (task : RknpuTask) :
    (∀ p task' dev',
      dev.submitIoctrlStep pending coreSlot submitFlags taskTotal taskDmaBase taskIndex task = .ok (p, task', dev') →
      p.Exact task.regcmdAddr.toNat (descriptorAddr taskDmaBase taskIndex) ((task.regcfgAmount.toNat + 4 + 1) / 2 - 1)) ↔
      (AcceptsStep dev coreSlot taskTotal taskIndex →
        task.regcmdAddr.toNat < 2 ^ 32 ∧ descriptorAddr taskDmaBase taskIndex < 2 ^ 32 ∧
          task.regcfgAmount.toNat < 2 ^ 32 - 4) := by
  rcases submitIoctrlStep_cases dev pending coreSlot submitFlags taskTotal taskDmaBase taskIndex task with
    ⟨hrefused, herr⟩ | ⟨haccepts, p, task', dev', hok, hregcmd, hdma, hamount, hoverflow⟩
  · rw [herr]
    exact ⟨fun _ haccepts => (hrefused haccepts).elim, fun _ _ _ _ h => by cases h⟩
  · have hiff : p.Exact task.regcmdAddr.toNat (descriptorAddr taskDmaBase taskIndex)
          ((task.regcfgAmount.toNat + 4 + 1) / 2 - 1) ↔
        task.regcmdAddr.toNat < 2 ^ 32 ∧ descriptorAddr taskDmaBase taskIndex < 2 ^ 32 ∧
          task.regcfgAmount.toNat < 2 ^ 32 - 4 := by
      rw [hdata, startExecuteOne_overflow] at hoverflow
      rw [← toNat_toUInt32_iff, ← taskDmaAddr_exact_iff, ← registerAmounts_exact_iff, Programmed.Exact, hregcmd, hdma,
        hamount, hoverflow, hdata]
      simp only [Option.map_some, Option.some.injEq, Bool.or_eq_false_iff]
      tauto
    constructor
    · intro h _
      exact hiff.mp (h p task' dev' hok)
    · intro h p₁ task₁ dev₁ hok₁
      rw [hok] at hok₁
      cases hok₁
      exact hiff.mpr (h haccepts)

/-- A descriptor with short values. -/
def shortTask : RknpuTask := { (default : RknpuTask) with regcfgAmount := 100, regcmdAddr := 0x10000 }

theorem submit_step_exact_iff_short : ∃ p task' dev',
    (RknpuDev.new 3 .new3588).submitIoctrlStep 0 0 0 2 0x2000 1 shortTask = .ok (p, task', dev') ∧
      p.Exact 0x10000 0x2028 51 :=
  ⟨_, _, _, rfl,
    (submit_step_exact_iff (RknpuDev.new 3 .new3588) rfl 0 0 0 2 0x2000 1 shortTask).mpr (fun _ => by decide) _ _ _ rfl⟩

/-- Two tasks on one lane, with no address of the descriptor array. -/
def legacySubmit : RknpuSubmit :=
  { RknpuSubmit.default with
    taskNumber := 2
    taskArrayCpuAddress := 0x10000
    coreMask := 1
    subcoreTask := #v[⟨0, 2⟩, ⟨0, 0⟩, ⟨0, 0⟩, ⟨0, 0⟩, ⟨0, 0⟩] }

/-- The second task of a submit without an array address writes zero and not 40, and the command address `2 ^ 32` is
written as zero. -/
theorem submit_step_loses_values :
    Service.checkSubmit legacySubmit = .ok () ∧
    (∃ p task' dev', (RknpuDev.new 3 .new3588).submitIoctrlStep 0 0 legacySubmit.flags legacySubmit.taskNumber
        legacySubmit.taskArrayDmaAddress 1 shortTask = .ok (p, task', dev') ∧
      legacySubmit.taskArrayDmaAddress.toNat + 40 * 1 = 40 ∧ p.value .pcTaskDmaBaseAddr = some 0) ∧
    ∃ p task' dev', (RknpuDev.new 3 .new3588).submitIoctrlStep 0 0 legacySubmit.flags legacySubmit.taskNumber
        legacySubmit.taskArrayDmaAddress 0 { shortTask with regcmdAddr := 0x100000000 } = .ok (p, task', dev') ∧
      p.value .pcBaseAddress = some 0 :=
  ⟨by decide, ⟨_, _, _, rfl, by decide, by decide⟩, _, _, _, rfl, by decide⟩

end Rknpu.Device
