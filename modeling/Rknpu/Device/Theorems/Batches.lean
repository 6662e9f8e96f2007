import Rknpu.Device.Theorems.Registers

/-!
# Batches of a high-level submit

`RknpuCore::submit` starts its operations in batches. Addresses are formed with saturating arithmetic; one that
saturates is far above the 32 bits it is then checked against.
-/

namespace Rknpu.Device

variable {config : RknpuData} {maxSubmitNumber : UInt64} {waitFn : Bool} {args : Submit} {env : Nat → BatchEnv}

/-! ## One batch -/

/-- An address that passes the check was formed without saturation. -/
theorem batch_addr_exact {base taskIter regcfgAmount : Nat}
    (h : saturatingAdd64 base (saturatingMul64 (saturatingMul64 taskIter regcfgAmount) 8) ≤ 2 ^ 32 - 1) :
    saturatingAdd64 base (saturatingMul64 (saturatingMul64 taskIter regcfgAmount) 8) =
      base + 8 * regcfgAmount * taskIter := by
  have hcomm : 8 * regcfgAmount * taskIter = taskIter * regcfgAmount * 8 := by ring
  rw [hcomm]
  simp only [saturatingAdd64, saturatingMul64] at h ⊢
  omega

/-- The batch has 1 to `maxSubmitNumber` operations and is started at the address of its first one. -/
structure Batch.Exact (maxSubmitNumber : UInt64) (args : Submit) (batch : Batch) : Prop where
  nonempty : 1 ≤ batch.block.size
  bounded : batch.block.size ≤ maxSubmitNumber.toNat
  number : batch.job.taskNumber = batch.block.size
  address : ∃ addr : UInt32, batch.programmed.value .pcBaseAddress = some addr ∧
    addr.toNat = args.regcmdBase.toNat + 8 * args.base.regcfgAmount.toNat * batch.block.start

theorem submitPc_base_address (before : List (Reg × UInt32)) (config : RknpuData) (job : SubmitRef) :
    Programmed.value { submitPc config job with writes := before ++ (submitPc config job).writes } .pcBaseAddress =
      some job.regcmdBaseAddr := by
  apply Programmed.value_append
  simp only [submitPc]
  split <;> rfl

/-! ## The loop -/

/-- The batches started so far are exact and cover the operations before `task_iter`. -/
structure SubmitLoop.Inv (maxSubmitNumber : UInt64) (args : Submit) (s : SubmitLoop) : Prop where
  tiles : Block.Tiles 0 (s.started.map Batch.block) s.taskIter
  within : s.taskIter ≤ args.totalTasks
  exact : ∀ batch ∈ s.started, batch.Exact maxSubmitNumber args

theorem SubmitLoop.Inv.turn (hmax : 1 ≤ maxSubmitNumber.toNat) {k : Nat} {s s' : SubmitLoop}
    (h : s.Inv maxSubmitNumber args) (hturn : args.turn config maxSubmitNumber waitFn env k s = .inl s') :
    s'.Inv maxSubmitNumber args := by
  unfold Submit.turn at hturn
  split at hturn
  · rename_i hlt
    dsimp only at hturn
    split at hturn
    · cases hturn
    · rename_i hfits
      rw [gt_iff_lt, not_lt] at hfits
      have haddr := batch_addr_exact hfits
      split at hturn
      · cases hturn
      · cases hturn
      · cases hturn
        refine ⟨?_, by dsimp only; omega, ?_⟩
        · rw [List.map_append]
          exact h.tiles.append ⟨rfl, rfl⟩
        · intro batch hbatch
          rcases List.mem_append.mp hbatch with hold | hnew
          · exact h.exact batch hold
          · rw [List.mem_singleton.mp hnew]
            refine ⟨by dsimp only; omega, Nat.min_le_right _ _, rfl, _, submitPc_base_address _ _ _, ?_⟩
            rw [UInt32.toNat_ofNat_of_lt' (show _ < 2 ^ 32 by omega), haddr]
  · cases hturn

/-- Only a turn that finds nothing left returns Ok. -/
theorem turn_returned_ok {k : Nat} {s : SubmitLoop} {started : List Batch}
    (hturn : args.turn config maxSubmitNumber waitFn env k s = .inr (.returned (.ok ()), started)) :
    args.totalTasks ≤ s.taskIter ∧ started = s.started := by
  unfold Submit.turn at hturn
  split at hturn
  · dsimp only at hturn
    split at hturn
    · cases hturn
    · split at hturn <;> cases hturn
  · rename_i hge
    cases hturn
    exact ⟨Nat.le_of_not_lt hge, rfl⟩

theorem turn_lowers (hmax : 1 ≤ maxSubmitNumber.toNat) {k : Nat} {s s' : SubmitLoop}
    (hturn : args.turn config maxSubmitNumber waitFn env k s = .inl s') :
    args.totalTasks - s'.taskIter < args.totalTasks - s.taskIter := by
  unfold Submit.turn at hturn
  split at hturn
  · dsimp only at hturn
    split at hturn
    · cases hturn
    · split at hturn
      · cases hturn
      · cases hturn
      · cases hturn
        dsimp only
        omega
  · cases hturn

/-- The loop takes at most one turn for each operation and one more, whatever the core reports. -/
theorem submit_ends (hmax : 1 ≤ maxSubmitNumber.toNat) {fuel : Nat} (hfuel : args.totalTasks < fuel) :
    ∃ r, args.submit config maxSubmitNumber waitFn env fuel = some r := by
  obtain ⟨n, r, hloop, -⟩ := loopFor_returns (I := fun _ => True) (k := 0) (s := ⟨0, []⟩) (fun _ _ _ _ _ => trivial)
    (fun s => args.totalTasks - s.taskIter)
    (fun k s s' _ (ht : args.turn config maxSubmitNumber waitFn env k s = .inl s') => turn_lowers hmax ht) trivial hfuel
  exact ⟨r, by rw [Submit.submit, hloop]; rfl⟩

/-- The batches of a submit that returns Ok partition its operations. -/
theorem submit_batches_exact (hmax : 1 ≤ maxSubmitNumber.toNat) {fuel : Nat} {started : List Batch}
    (h : args.submit config maxSubmitNumber waitFn env fuel = some (.returned (.ok ()), started)) :
    started.flatMap (fun batch => batch.block.indices) = List.range args.totalTasks ∧
      ∀ batch ∈ started, batch.Exact maxSubmitNumber args := by
  obtain ⟨⟨n, r⟩, hloop, rfl⟩ := Option.map_eq_some_iff.mp h
  obtain ⟨s, hinv, hturn⟩ := loopFor_inv (I := SubmitLoop.Inv maxSubmitNumber args)
    (fun _ _ _ hs ht => hs.turn hmax ht) hloop ⟨rfl, Nat.zero_le _, fun _ hb => nomatch hb⟩
  obtain ⟨hge, rfl⟩ := turn_returned_ok hturn
  refine ⟨?_, hinv.exact⟩
  have hflat := hinv.tiles.flatMap_indices
  rw [List.flatMap_map, Nat.sub_zero, ← List.range_eq_range', Nat.le_antisymm hinv.within hge] at hflat
  exact hflat

/-- Five operations of 112 words, two to a batch. -/
def fiveOperations : Submit where
  base :=
    { flags := 0, taskArrayDmaAddress := 0, coreIdx := 0, intMask := 0x300, intClear := 0x1ffff, regcfgAmount := 112 }
  regcmdBase := 0x10000
  totalTasks := 5

theorem submit_batches_exact_five : ∃ started, fiveOperations.submit .new3588 2 true (fun _ => ⟨0, [0, 0x300]⟩) 6 =
      some (.returned (.ok ()), started) ∧
    started.flatMap (fun batch => batch.block.indices) = List.range 5 ∧
    ∀ batch ∈ started, batch.Exact 2 fiveOperations := by
  obtain ⟨started, h⟩ : ∃ started, fiveOperations.submit .new3588 2 true (fun _ => ⟨0, [0, 0x300]⟩) 6 =
      some (.returned (.ok ()), started) := ⟨_, rfl⟩
  exact ⟨started, h, submit_batches_exact (by decide) h⟩

end Rknpu.Device
