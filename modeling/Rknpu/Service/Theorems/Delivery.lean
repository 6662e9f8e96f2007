import Rknpu.Service.Lemmas.Invariant
import Rknpu.Service.Theorems.Publication

/-!
# Interrupts are delivered

Which interrupts of a working core the next harvest reports, and what a reported one does to the bound task. Every
interrupt is acknowledged with all its bits, but only the low twelve are published.
-/

namespace Rknpu.Service

open Queue Device

variable {W : Type}

/-- An interrupt of the core with one of the bits that are published. -/
def DriverAct.Publishes (coreSlot : Nat) : DriverAct W → Prop
  | .irq core intStatus _ => core = coreSlot ∧ intStatus &&& 0xfff ≠ 0
  | _ => False

namespace Driver

variable {d d' : Driver W} {coreSlot : Nat} {binding : CoreRunBinding} {a : DriverAct W}

/-- The running harvest turns to the core. -/
def TurnsTo (d : Driver W) (coreSlot : Nat) (a : DriverAct W) : Prop :=
  a = .worker .harvest ∧ ∃ completed, d.pc = .harvest coreSlot completed

/-! ## Up to the next harvest -/

theorem TurnsTo.of_completed_worker {act : WorkerAct} (hs : WorkerStep d act d') {completion : CoreCompletion}
    (hmem : completion ∈ d'.pc.completed) :
    completion ∈ d.pc.completed ∨ d.TurnsTo completion.coreSlot.toNat (.worker act) := by
  cases hs with
  | @harvest next completed hpc =>
      rw [hpc]
      unfold Driver.harvestStep at hmem
      split at hmem
      · rename_i hnext
        have hlt : next < 3 := lt_of_lt_of_le hnext (Nat.min_le_right _ _)
        rcases d.dev.takeCompletion_cases next with ⟨_, he⟩ | ⟨core, _, _, he⟩
        · rw [he] at hmem
          exact .inl hmem
        · rw [he] at hmem
          rcases List.mem_append.mp hmem with hbefore | hnew
          · exact .inl hbefore
          · cases List.mem_singleton.mp hnew
            refine .inr ⟨rfl, completed, ?_⟩
            rw [hpc, UInt8.toNat_ofNat', Nat.mod_eq_of_lt (by omega)]
      · split at hmem
        · cases hmem
        · exact .inl hmem
  | decide hpc _ =>
      unfold Driver.decideStep at hmem
      split at hmem
      · exact .inl hmem
      · split at hmem <;> cases hmem
  | check hpc =>
      unfold Driver.checkStep at hmem
      split at hmem
      · cases hmem
      · split at hmem <;> cases hmem
  | refuse hpc _ | wakeFailed hpc _ => exact .inl hmem
  | _ => cases hmem

/-- A completion that the worker holds was there before, or comes from the turn to its core. -/
theorem TurnsTo.of_completed (hs : d.step a = some d') {completion : CoreCompletion}
    (hmem : completion ∈ d'.pc.completed) :
    completion ∈ d.pc.completed ∨ d.TurnsTo completion.coreSlot.toNat a := by
  cases a with
  | worker act => exact TurnsTo.of_completed_worker (workerStep_cases hs) hmem
  | enqueue submit tasks t0Ns waiter timeNs =>
      cases hs
      exact .inl hmem
  | abort taskId | take taskId | command cmd =>
      cases hs
      exact .inl hmem
  | spawn =>
      obtain ⟨_, hs⟩ := Option.ite_none_right_eq_some.mp hs
      cases hs
      cases hmem
  | enqueueNotify | irqNotify | irq coreSlot intStatus irqTimeNs =>
      obtain ⟨_, hs⟩ := Option.ite_none_right_eq_some.mp hs
      cases hs
      exact .inl hmem

/-- The core works on its task until the harvest turns to it. -/
theorem Working.step (h : d.Working coreSlot binding) (hphased : d.Phased) (hqueued : d.sys.state.Queued)
    (hreset : ¬ a.IsReset) (hturn : ¬ d.TurnsTo coreSlot a) (hs : d.step a = some d') :
    d'.Working coreSlot binding := by
  rcases h.keeps.step hphased hqueued hreset hs with hkeeps | ⟨_, completed, hpc, _, completion, hmem, hcore, _⟩
  · refine ⟨hkeeps.bound, hkeeps.started, fun completion hmem hcore => ?_⟩
    rcases TurnsTo.of_completed hs hmem with hbefore | hturns
    · exact h.fresh completion hbefore hcore
    · exact hturn (hcore ▸ hturns)
  · -- A completion of this core would be in the hands of the worker already.
    exact (h.fresh completion (by rw [hpc]; exact hmem) hcore).elim

/-- Until then interrupts alone decide whether its status is zero. -/
theorem Working.irqStatus_step (h : d.Working coreSlot binding) (hcore : coreSlot < d.dev.base.length)
    (hreset : ¬ a.IsReset) (hturn : ¬ d.TurnsTo coreSlot a) (hs : d.step a = some d') :
    d'.dev.irqStatus coreSlot ≠ 0 ↔ d.dev.irqStatus coreSlot ≠ 0 ∨ a.Publishes coreSlot := by
  cases a with
  | irq core intStatus irqTimeNs =>
      obtain ⟨_, hs⟩ := Option.ite_none_right_eq_some.mp hs
      cases hs
      simp only [Driver.irqStep, RknpuDev.irqStatus_handleInterruptAt, DriverAct.Publishes]
      by_cases he : core = coreSlot
      · subst he
        rw [RknpuDev.handleInterruptAt_status hcore, ← rknpuFuzzStatus_ne_zero]
        simp only [↓reduceIte, ne_eq, UInt32.or_eq_zero_iff, true_and]
        tauto
      · simp [he]
  | command cmd =>
      cases hs
      simp [irqStatus_runCommand_eq hreset, DriverAct.Publishes]
  | worker act =>
      rcases (workerStep_cases hs).dev with he | ⟨next, completed, rfl, hpc, he⟩ | ⟨setup, progress, step, hw, hpc, hstep, he⟩
      · simp [he, DriverAct.Publishes]
      · have hne : next ≠ coreSlot := by
          rintro rfl
          exact hturn ⟨rfl, completed, hpc⟩
        simp [he, RknpuDev.irqStatus_clearCompletionShadow_of_ne hne, DriverAct.Publishes]
      · have hne := h.keeps.core_ne hw hpc hstep
        simp [he, RknpuDev.irqStatus_clearCompletionShadow_of_ne hne, DriverAct.Publishes]
  | enqueue submit tasks t0Ns waiter timeNs =>
      cases hs
      simp [DriverAct.Publishes]
  | abort taskId | take taskId =>
      cases hs
      simp [DriverAct.Publishes]
  | spawn | enqueueNotify | irqNotify =>
      obtain ⟨_, hs⟩ := Option.ite_none_right_eq_some.mp hs
      cases hs
      simp [DriverAct.Publishes, Driver.notify]

/-- The run does not come to a turn to the core. -/
def NoTurn (M : Machine (Driver W) (DriverAct W)) (d : Driver W) (coreSlot : Nat) (later : List (DriverAct W)) : Prop :=
  ∀ before a after d', later = before ++ a :: after → M.runFrom d before = some d' → ¬ d'.TurnsTo coreSlot a

theorem Working.run {coreCount : Nat} {data : RknpuData} {acts later : List (DriverAct W)}
    (h : d.Working coreSlot binding) (hrun : (driver W coreCount data).run acts = some d) (hcore : coreSlot < coreCount)
    (hlater : (driver W coreCount data).runFrom d later = some d') (hreset : ∀ a ∈ later, ¬ a.IsReset)
    (hturn : NoTurn (driver W coreCount data) d coreSlot later) :
    d'.Working coreSlot binding ∧
      (d'.dev.irqStatus coreSlot ≠ 0 ↔ d.dev.irqStatus coreSlot ≠ 0 ∨ ∃ a ∈ later, a.Publishes coreSlot) := by
  refine Machine.runFrom_induction (M := driver W coreCount data) (P := fun later d' =>
    (∀ a ∈ later, ¬ a.IsReset) → NoTurn (driver W coreCount data) d coreSlot later → d'.Working coreSlot binding ∧
      (d'.dev.irqStatus coreSlot ≠ 0 ↔ d.dev.irqStatus coreSlot ≠ 0 ∨ ∃ a ∈ later, a.Publishes coreSlot))
    ?_ ?_ hlater hreset hturn
  · intro _ _
    simp [h]
  · intro as d₁ a d₂ has ih hs hreset hturn
    have hrun₁ := Machine.run_append hrun has
    have hreset₁ := hreset a (List.mem_append_right _ (List.mem_singleton_self a))
    have hturn₁ : ¬ d₁.TurnsTo coreSlot a := hturn as a [] d₁ rfl has
    obtain ⟨hworking, hstatus⟩ := ih (fun a' ha' => hreset a' (List.mem_append_left _ ha'))
      fun before a' after d' he => hturn before a' (after ++ [a]) d' (by rw [he, List.append_assoc]; rfl)
    refine ⟨hworking.step (phased_of_run hrun₁) (queued_of_run hrun₁) hreset₁ hturn₁ hs, ?_⟩
    rw [hworking.irqStatus_step (hcore.trans_eq (length_of_run hrun₁).symm) hreset₁ hturn₁ hs, hstatus]
    simp only [List.mem_append, List.mem_singleton, or_and_right, exists_or, exists_eq_left, or_assoc]

/-! ## From the harvest to the scheduler -/

theorem harvestStep_turn (hlt : coreSlot < harvestLimit d.dev) (completed : List CoreCompletion) :
    (d.dev.irqStatus coreSlot = 0 ∧ (d.harvestStep coreSlot completed).pc.completed = completed) ∨
    (d.dev.irqStatus coreSlot ≠ 0 ∧ ∃ completion, completion.coreSlot.toNat = coreSlot ∧
      completion.observedIrqStatus ≠ 0 ∧
      (d.harvestStep coreSlot completed).pc.completed = completed ++ [completion]) := by
  have hmax : coreSlot < 3 := lt_of_lt_of_le hlt (Nat.min_le_right _ _)
  rw [Driver.harvestStep, if_pos hlt]
  rcases d.dev.takeCompletion_cases coreSlot with ⟨hzero, he⟩ | ⟨core, hcore, hne, he⟩
  · rw [he]
    exact .inl ⟨hzero, rfl⟩
  · rw [he, hcore]
    refine .inr ⟨hne, _, ?_, hne, rfl⟩
    rw [UInt8.toNat_ofNat', Nat.mod_eq_of_lt (by omega)]

/-- What the worker has taken it keeps until it gives it to the scheduler. -/
theorem completed_grows (hs : d.step a = some d') (hrecord : ∀ timeNs, a ≠ .worker (.record timeNs))
    (hne : d.pc.completed ≠ []) : d.pc.completed <+: d'.pc.completed := by
  cases a with
  | worker act =>
      have hcases := workerStep_cases hs
      cases hcases with
      | @harvest next completed hpc =>
          rw [hpc] at hne ⊢
          unfold Driver.harvestStep
          split
          · rcases d.dev.takeCompletion_cases next with ⟨_, he⟩ | ⟨core, _, _, he⟩
            · rw [he]
              exact List.prefix_rfl
            · rw [he]
              exact List.prefix_append ..
          · split
            · rename_i hempty
              exact (hne (List.isEmpty_iff.mp hempty)).elim
            · exact List.prefix_rfl
      | @record completed timeNs sys _ _ => exact (hrecord timeNs rfl).elim
      | listen hpc | harvestRefused hpc | wakeHarvested hpc _ | decide hpc _ | refuse hpc _ | wakeFailed hpc _
      | drain hpc _ | clear hpc _ | launch hpc _ | check hpc | wake hpc _ =>
          exact (hne (by rw [hpc]; rfl)).elim
  | enqueue submit tasks t0Ns waiter timeNs =>
      cases hs
      exact List.prefix_rfl
  | abort taskId | take taskId | command cmd =>
      cases hs
      exact List.prefix_rfl
  | spawn =>
      obtain ⟨⟨_, hpc⟩, _⟩ := Option.ite_none_right_eq_some.mp hs
      rw [hpc] at hne
      exact (hne rfl).elim
  | enqueueNotify | irqNotify | irq core intStatus irqTimeNs =>
      obtain ⟨_, hs⟩ := Option.ite_none_right_eq_some.mp hs
      cases hs
      exact List.prefix_rfl

end Driver

/-- Until the worker gives what it has taken to the scheduler, the core keeps its binding. -/
theorem Driver.Keeps.run {d d' : Driver W} {coreSlot : Nat} {binding : CoreRunBinding} {v : UInt32} {coreCount : Nat}
    {data : RknpuData} {acts rest : List (DriverAct W)} (h : d.Keeps coreSlot binding v)
    (hrun : (driver W coreCount data).run acts = some d) (hrest : (driver W coreCount data).runFrom d rest = some d')
    (hquiet : ∀ a ∈ rest, ¬ a.IsReset ∧ ∀ timeNs, a ≠ .worker (.record timeNs)) (hne : d.pc.completed ≠ []) :
    d'.Keeps coreSlot binding v ∧ d.pc.completed <+: d'.pc.completed := by
  refine Machine.runFrom_induction (M := driver W coreCount data) (P := fun rest d' =>
    (∀ a ∈ rest, ¬ a.IsReset ∧ ∀ timeNs, a ≠ .worker (.record timeNs)) →
      d'.Keeps coreSlot binding v ∧ d.pc.completed <+: d'.pc.completed) (fun _ => ⟨h, List.prefix_rfl⟩) ?_ hrest hquiet
  intro as d₁ a d₂ has ih hs hquiet
  obtain ⟨hkeeps, hgrows⟩ := ih fun a' ha' => hquiet a' (List.mem_append_left _ ha')
  obtain ⟨hreset, hrecord⟩ := hquiet a (List.mem_append_right _ (List.mem_singleton_self a))
  have hrun₁ := Machine.run_append hrun has
  have hne₁ : d₁.pc.completed ≠ [] := by
    intro hnil
    rw [hnil] at hgrows
    exact hne (List.prefix_nil.mp hgrows)
  refine ⟨?_, hgrows.trans (Driver.completed_grows hs hrecord hne₁)⟩
  rcases hkeeps.step (Driver.phased_of_run hrun₁) (Driver.queued_of_run hrun₁) hreset hs with hnext | ⟨⟨timeNs, he⟩, _⟩
  · exact hnext
  · exact (hrecord timeNs he).elim

/-- The record shows the completion of a task: the bits inside the mask go into the descriptor, and a status without
any of them is an error. -/
def Settled (taskIndex status : UInt32) (t t' : RknpuQueueTask) : Prop :=
  ∃ desc, t.tasks[taskIndex.toNat]? = some desc ∧
    t'.tasks[taskIndex.toNat]? = some { desc with intStatus := status &&& desc.intMask } ∧
    (status &&& desc.intMask ≠ 0 ∧ t'.lastError = t.lastError ∨
      status &&& desc.intMask = 0 ∧ t'.lastError = some .taskError)

/-- One turn of the harvest loop completes or fails the task that the core is bound to, if its submit is live. -/
def NpuSchedulerState.Settles (s : NpuSchedulerState W) (binding : CoreRunBinding) (completion : CoreCompletion)
    (timeNs : UInt64) : Prop :=
  ∀ t, s.tasks[binding.taskId]? = some t →
    ∃ t', ((s.harvestCompletion completion timeNs).2.tasks[binding.taskId]? = some t' ∨
        (s.harvestCompletion completion timeNs).2.complete[binding.taskId]? = some t') ∧
      Settled binding.taskIndex completion.observedIrqStatus t t'

theorem settled_harvestSlot {t : RknpuQueueTask} {slot : Slot} {status : UInt32} (hstatus : status ≠ 0)
    (h : slot.taskIndex.toNat < t.tasks.length) (timeNs : UInt64) :
    Settled slot.taskIndex status t (t.harvestSlot slot status timeNs) := by
  obtain ⟨lat, he⟩ := t.harvestSlot_eq slot status timeNs
  refine ⟨_, List.getElem?_eq_getElem h, ?_, ?_⟩
  · rw [he, RknpuQueueTask.recordCompletion_eq h, List.getElem?_modify_eq, List.getElem?_eq_getElem h]
    rfl
  · have herror : (t.harvestSlot slot status timeNs).lastError =
        (t.recordCompletion slot.laneSlot slot.taskIndex status).lastError := by rw [he]
    rw [herror, RknpuQueueTask.lastError_recordCompletion h]
    by_cases hmask : status &&& t.tasks[slot.taskIndex.toNat].intMask = 0
    · exact .inr ⟨hmask, if_pos ⟨hstatus, hmask⟩⟩
    · exact .inl ⟨hmask, if_neg fun hboth => hmask hboth.2⟩

theorem Sys.Inv.settles {y : Sys W} (h : y.Inv) {completion : CoreCompletion} {binding : CoreRunBinding}
    (hbound : y.state.coreBinding[completion.coreSlot.toNat]? = some binding)
    (hstatus : completion.observedIrqStatus ≠ 0) (timeNs : UInt64) : y.state.Settles binding completion timeNs := by
  intro t ht
  obtain ⟨queued, _, fl, _, hfits, hreach, hagree⟩ := h.life ht
  obtain ⟨hmem, hperm⟩ := hagree.perm_erase hbound rfl
  have hlt := (hreach.inv hfits).lt_length_of_mem hfits rfl hmem
  have hafter := (harvestCompletion_live hbound ht ((h.queues.filed _).owned t ht) timeNs).1 _ hperm
  refine ⟨_, ?_, settled_harvestSlot hstatus hlt timeNs⟩
  cases hplace : settledPlace (t.recordCompletion binding.laneSlot binding.taskIndex completion.observedIrqStatus) with
  | live => exact .inl (hafter.tasks.trans (if_pos hplace))
  | complete => exact .inr (hafter.complete.trans (if_pos hplace))
  | gone => exact (settledPlace_ne_gone hplace).elim

/-! ## Whole runs -/

/-- An interrupt of a working core is reported by the next harvest of the core exactly when one of the low twelve bits
is set in it, in what was published before, or in another interrupt that comes before the harvest. What is reported is
given to the scheduler, which completes or fails the bound task. -/
theorem interrupt_delivered_iff {coreCount : Nat} {data : RknpuData} {acts : List (DriverAct W)} {d : Driver W}
    (hrun : (driver W coreCount data).run acts = some d) {coreSlot : Nat} {binding : CoreRunBinding}
    (hworking : d.Working coreSlot binding) (hcore : coreSlot < coreCount)
    {intStatus : UInt32} {irqTimeNs : UInt64} {d₁ : Driver W}
    (hirq : (driver W coreCount data).step d (.irq coreSlot intStatus irqTimeNs) = some d₁)
    {later : List (DriverAct W)} {d₂ : Driver W} (hlater : (driver W coreCount data).runFrom d₁ later = some d₂)
    (hreset : ∀ a ∈ later, ¬ a.IsReset) (hfirst : Driver.NoTurn (driver W coreCount data) d₁ coreSlot later)
    {completed : List CoreCompletion} (hpc : d₂.pc = .harvest coreSlot completed) {d₃ : Driver W}
    (hturn : (driver W coreCount data).step d₂ (.worker .harvest) = some d₃) :
    ((∃ completion ∈ d₃.pc.completed, completion.coreSlot.toNat = coreSlot) ↔
      d.dev.irqStatus coreSlot ≠ 0 ∨ intStatus &&& 0xfff ≠ 0 ∨ ∃ a ∈ later, a.Publishes coreSlot) ∧
    ∀ completion ∈ d₃.pc.completed, completion.coreSlot.toNat = coreSlot →
      ∀ (rest : List (DriverAct W)) (d₄ : Driver W) (timeNs : CoreCompletion → UInt64) (d₅ : Driver W),
        (driver W coreCount data).runFrom d₃ rest = some d₄ →
        (∀ a ∈ rest, ¬ a.IsReset ∧ ∀ timeNs, a ≠ .worker (.record timeNs)) →
        (driver W coreCount data).step d₄ (.worker (.record timeNs)) = some d₅ → d₅.sys.IdsFit →
        ∃ before after, d₄.pc = .record (before ++ completion :: after) ∧
          (d₄.sys.state.harvestCompletions (before.map fun c => (c, timeNs c))).2.coreBinding[coreSlot]? = some binding ∧
          (d₄.sys.state.harvestCompletions (before.map fun c => (c, timeNs c))).2.Settles binding completion
            (timeNs completion) := by
  have hrun₁ := Machine.run_snoc hrun hirq
  replace hirq : d.step (.irq coreSlot intStatus irqTimeNs) = some d₁ := hirq
  have hphased := Driver.phased_of_run hrun
  have hno : ¬ d.TurnsTo coreSlot (.irq coreSlot intStatus irqTimeNs) := fun h => nomatch h.1
  have hworking₁ := hworking.step hphased (Driver.queued_of_run hrun) id hno hirq
  have hstatus₁ := hworking.irqStatus_step (hcore.trans_eq (Driver.length_of_run hrun).symm) id hno hirq
  obtain ⟨hworking₂, hstatus₂⟩ := hworking₁.run hrun₁ hcore hlater hreset hfirst
  have hrun₂ := Machine.run_append hrun₁ hlater
  have hlimit : coreSlot < Driver.harvestLimit d₂.dev := by
    refine lt_min (hcore.trans_eq (Driver.length_of_run hrun₂).symm) ?_
    exact (Option.ite_none_right_eq_some.mp hirq).1
  have hstep : d₃ = d₂.harvestStep coreSlot completed := by
    cases Driver.workerStep_cases hturn with
    | harvest hpc' =>
        cases hpc.symm.trans hpc'
        rfl
  have hfresh : ∀ completion ∈ completed, completion.coreSlot.toNat ≠ coreSlot := by
    have := hworking₂.fresh
    rwa [hpc] at this
  have hkeeps : d₃.Keeps coreSlot binding (d₂.dev.irqStatus coreSlot) := by
    rw [hstep]
    exact hworking₂.keeps.harvestStep hpc (Driver.phased_of_run hrun₂)
  have hirqStatus : d₂.dev.irqStatus coreSlot ≠ 0 ↔
      d.dev.irqStatus coreSlot ≠ 0 ∨ intStatus &&& 0xfff ≠ 0 ∨ ∃ a ∈ later, a.Publishes coreSlot := by
    rw [hstatus₂, hstatus₁]
    simp only [DriverAct.Publishes, true_and, or_assoc]
  rw [← hirqStatus]
  rcases Driver.harvestStep_turn hlimit completed with ⟨hzero, hnone⟩ | ⟨hne, new, hslot, hnew, hsome⟩
  · rw [hstep, hnone]
    refine ⟨⟨?_, fun hne => (hne hzero).elim⟩, ?_⟩
    · rintro ⟨completion, hmem, he⟩
      exact (hfresh completion hmem he).elim
    · exact fun completion hmem he => (hfresh completion hmem he).elim
  · have hcompleted : d₃.pc.completed = completed ++ [new] := hstep ▸ hsome
    rw [hcompleted]
    refine ⟨⟨fun _ => hne, fun _ => ⟨new, by simp, hslot⟩⟩, ?_⟩
    intro completion hmem he rest d₄ timeNs d₅ hrest hquiet hrecord hfit
    have hthis : completion = new := by
      rcases List.mem_append.mp hmem with hold | hlast
      · exact (hfresh completion hold he).elim
      · exact List.mem_singleton.mp hlast
    subst hthis
    have hrun₃ := Machine.run_snoc hrun₂ hturn
    obtain ⟨hkeeps₄, after, hgrown⟩ := hkeeps.run hrun₃ hrest hquiet (by simp [hcompleted])
    rw [hcompleted, List.append_assoc, List.singleton_append] at hgrown
    cases Driver.workerStep_cases hrecord with
    | @record completed₄ _ sys hpc₄ hsys =>
        have hlist : completed₄ = completed ++ completion :: after := by
          rw [hgrown, hpc₄]
          rfl
        have hbound : (d₄.sys.state.harvestCompletions
            (completed.map fun c => (c, timeNs c))).2.coreBinding[coreSlot]? = some binding := by
          refine (NpuSchedulerState.coreBinding_harvestCompletions ?_).trans hkeeps₄.bound
          intro c hc
          obtain ⟨old, hold, rfl⟩ := List.mem_map.mp hc
          exact hfresh old hold
        refine ⟨completed, after, hlist ▸ hpc₄, hbound, ?_⟩
        -- The loop up to this turn is a harvest of its own, after which the invariant holds.
        obtain ⟨sysActs, hsysRun⟩ := Driver.reaches_sys (Machine.run_append hrun₃ hrest)
        have hinv := Sys.inv_of_run hsysRun (hfit.of_step hsys)
        refine (hinv.of_section (hinv.harvest (completed.map fun c => (c, timeNs c)))).settles ?_ hnew _
        rw [he]
        exact hbound

/-- One task was started on core 0. -/
def startedRun : List (DriverAct Unit) := boundRun ++ ([.drain, .clear, .launch 0] : List WorkerAct).map .worker

/-- The next round of the worker comes to core 0. -/
def nextRound : List (DriverAct Unit) := [.worker .decide, .worker .listen]

theorem interrupt_delivered_iff_done : ∃ d d₁ d₂ d₃ : Driver Unit,
    (driver Unit 3 RknpuData.new3588).run startedRun = some d ∧
    (driver Unit 3 RknpuData.new3588).step d (.irq 0 0x300 7) = some d₁ ∧
    (driver Unit 3 RknpuData.new3588).runFrom d₁ nextRound = some d₂ ∧
    (driver Unit 3 RknpuData.new3588).step d₂ (.worker .harvest) = some d₃ ∧
    ∃ completion ∈ d₃.pc.completed, completion.coreSlot.toNat = 0 := by
  obtain ⟨d, d₁, d₂, hrun, hirq, hlater, ⟨hbound, hpc₀, hfree⟩, hpc, hsome⟩ :=
    Machine.exists_step_run (M := driver Unit 3 RknpuData.new3588) startedRun (.irq 0 0x300 7) nextRound
      (p := fun d _ d₂ => (d.sys.state.coreBinding[0]? = some firstBinding ∧ d.pc = .dispatch true .asked ∧
        d.sys.worker = .free) ∧ d₂.pc = .harvest 0 [] ∧ (d₂.step (.worker .harvest)).isSome = true) (by decide +kernel)
  obtain ⟨d₃, hturn⟩ := Option.isSome_iff_exists.mp hsome
  have hworking : d.Working 0 firstBinding := by
    refine ⟨hbound, Driver.not_starting_of_worker fun setup hw => ?_, ?_⟩
    · cases hfree.symm.trans hw
    · rw [hpc₀]
      exact List.forall_mem_nil _
  have hturns : Driver.NoTurn (driver Unit 3 RknpuData.new3588) d₁ 0 nextRound := by
    rintro before a after _ he _ ⟨rfl, _⟩
    have hmem : .worker .harvest ∈ nextRound := he ▸ List.mem_append_right before List.mem_cons_self
    simp [nextRound] at hmem
  have hreset : ∀ a ∈ nextRound, ¬ a.IsReset := by simp [nextRound, DriverAct.IsReset]
  have h := interrupt_delivered_iff hrun hworking (by decide) hirq hlater hreset hturns hpc hturn
  exact ⟨d, d₁, d₂, d₃, hrun, hirq, hlater, hturn, h.1.mpr (.inr (.inl (by decide)))⟩

/-- An interrupt with bit 12 alone: it is acknowledged, a whole harvest finds nothing, and the worker sleeps with the
core bound and no notification on its way. -/
theorem interrupt_lost : ∃ d d₁ d' : Driver Unit,
    (driver Unit 3 RknpuData.new3588).run (startedRun ++ [.enqueueNotify]) = some d ∧
    (driver Unit 3 RknpuData.new3588).step d (.irq 0 0x1000 7) = some d₁ ∧
    (driver Unit 3 RknpuData.new3588).runFrom d₁ (([.decide, .listen, .harvest, .harvest, .harvest, .harvest,
      .decide, .check] : List WorkerAct).map .worker) = some d' ∧
    (d.sys.state.coreBinding[0]? = some firstBinding ∧ d'.sys.state.coreBinding[0]? = some firstBinding ∧
      d'.dev.irqStatus 0 = 0 ∧ d'.pc = .wait ∧ d'.listener = some false ∧
      d'.enqueueKicks = 0 ∧ d'.irqKicks = 0) :=
  Machine.exists_step_run (M := driver Unit 3 RknpuData.new3588) _ _ _ (by decide +kernel)

end Rknpu.Service
