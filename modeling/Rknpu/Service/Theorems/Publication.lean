import Rknpu.Service.Theorems.Wakeup

/-!
# A published completion is harvested

Once the task of a bound core has been started, a status that its interrupt publishes stays until a harvest returns
it for that binding, unless a process asks for a reset.
-/

namespace Rknpu.Service

open Queue Device

variable {W : Type}

/-- What the running harvest has taken and not recorded yet. -/
def WorkerPc.completed : WorkerPc → List CoreCompletion
  | .harvest _ completed | .record completed => completed
  | _ => []

/-- Every bit of `v` is set in `w`. -/
def Covers (w v : UInt32) : Prop := v ||| w = w

instance (w v : UInt32) : Decidable (Covers w v) := inferInstanceAs (Decidable (_ = _))

namespace Driver

variable {d d' : Driver W} {coreSlot : Nat} {binding : CoreRunBinding} {v : UInt32}

/-- The bound task of the core is being started, and its status will be cleared. -/
def Starting (d : Driver W) (coreSlot : Nat) : Prop :=
  ∃ setup progress step, d.sys.worker = .dispatching setup ∧ setup.coreSlot = coreSlot ∧
    d.pc = .dispatch progress step ∧ step ≠ .cleared

/-- The core works on its bound task, and the running harvest has not taken a completion of it. -/
structure Working (d : Driver W) (coreSlot : Nat) (binding : CoreRunBinding) : Prop where
  bound : d.sys.state.coreBinding[coreSlot]? = some binding
  started : ¬ d.Starting coreSlot
  fresh : ∀ completion ∈ d.pc.completed, completion.coreSlot.toNat ≠ coreSlot

/-- The status is published, or in the hands of the running harvest, and the core has kept its binding. -/
def Held (d : Driver W) (coreSlot : Nat) (binding : CoreRunBinding) (v : UInt32) : Prop :=
  d.sys.state.coreBinding[coreSlot]? = some binding ∧
    (Covers (d.dev.irqStatus coreSlot) v ∨
      ∃ completion ∈ d.pc.completed, completion.coreSlot.toNat = coreSlot ∧ Covers completion.observedIrqStatus v)

/-- The harvest gives the status to the scheduler while the core has the binding. -/
def Returns (d : Driver W) (coreSlot : Nat) (binding : CoreRunBinding) (v : UInt32) : Prop :=
  ∃ completed, d.pc = .record completed ∧ d.sys.state.coreBinding[coreSlot]? = some binding ∧
    ∃ completion ∈ completed, completion.coreSlot.toNat = coreSlot ∧ Covers completion.observedIrqStatus v

/-! ## The worker's two positions agree -/

/-- A dispatch is under way only inside the dispatch loop. -/
def Phased (d : Driver W) : Prop :=
  ∀ setup, d.sys.worker = .dispatching setup → ∃ progress step, d.pc = .dispatch progress step

theorem Phased.elsewhere (h : d.Phased) {setup : DispatchSetup} (hw : d.sys.worker = .dispatching setup)
    (hpc : ∀ progress step, d.pc ≠ .dispatch progress step) : False := by
  obtain ⟨progress, step, hdispatch⟩ := h setup hw
  exact hpc progress step hdispatch

theorem Phased.worker (h : d.Phased) {act : WorkerAct} (hs : WorkerStep d act d') : d'.Phased := by
  intro setup hw
  cases hs with
  | listen hpc => exact (h.elsewhere hw (hpc ▸ nofun)).elim
  | harvestRefused hpc => exact (h.elsewhere hw (hpc ▸ nofun)).elim
  | harvest hpc =>
      rw [harvestStep_sys] at hw
      exact (h.elsewhere hw (hpc ▸ nofun)).elim
  | record _ hsys =>
      cases Sys.step_cases hsys
      cases hw
  | wakeHarvested _ hsys =>
      cases Sys.step_cases hsys
      cases hw
  | decide hpc hfree =>
      rw [decideStep_sys] at hw
      unfold Driver.decideStep
      cases hdec : d.sys.state.dispatchDecision.1 with
      | some setup' => exact ⟨_, _, hpc⟩
      | none =>
          rw [Sys.decide_worker hdec, hfree] at hw
          cases hw
  | refuse hpc _ => exact ⟨_, _, hpc⟩
  | wakeFailed hpc _ => exact ⟨_, _, hpc⟩
  | drain _ _ => exact ⟨_, _, rfl⟩
  | clear _ _ => exact ⟨_, _, rfl⟩
  | launch _ _ => exact ⟨_, _, rfl⟩
  | check hpc =>
      rw [checkStep_sys] at hw
      exact (h.elsewhere hw (hpc ▸ nofun)).elim
  | wake hpc _ => exact (h.elsewhere hw (hpc ▸ nofun)).elim

theorem Phased.step (h : d.Phased) {a : DriverAct W} (hs : d.step a = some d') : d'.Phased := by
  cases a with
  | enqueue submit tasks t0Ns waiter timeNs =>
      cases hs
      exact h
  | spawn =>
      obtain ⟨⟨_, hpc⟩, hs⟩ := Option.ite_none_right_eq_some.mp hs
      cases hs
      exact fun setup hw => (h.elsewhere hw (hpc ▸ nofun)).elim
  | enqueueNotify =>
      obtain ⟨_, hs⟩ := Option.ite_none_right_eq_some.mp hs
      cases hs
      exact h
  | abort taskId =>
      cases hs
      exact h
  | take taskId =>
      cases hs
      exact h
  | irq coreSlot intStatus irqTimeNs =>
      obtain ⟨_, hs⟩ := Option.ite_none_right_eq_some.mp hs
      cases hs
      exact h
  | irqNotify =>
      obtain ⟨_, hs⟩ := Option.ite_none_right_eq_some.mp hs
      cases hs
      exact h
  | command cmd =>
      cases hs
      exact h
  | worker act => exact h.worker (workerStep_cases hs)

theorem phased_of_run {coreCount : Nat} {data : RknpuData} {acts : List (DriverAct W)}
    (hrun : (driver W coreCount data).run acts = some d) : d.Phased := by
  refine Machine.run_induction (M := driver W coreCount data) (P := fun _ d => d.Phased) ?_ ?_ hrun
  · exact fun setup hw => nomatch hw
  · exact fun _ _ _ _ _ h hs => h.step hs

/-! ## One step -/

/-- What carries a published status from step to step. -/
structure Keeps (d : Driver W) (coreSlot : Nat) (binding : CoreRunBinding) (v : UInt32) : Prop where
  bound : d.sys.state.coreBinding[coreSlot]? = some binding
  started : ¬ d.Starting coreSlot
  status : (Covers (d.dev.irqStatus coreSlot) v ∧ ∀ completion ∈ d.pc.completed, completion.coreSlot.toNat ≠ coreSlot) ∨
    ∃ completion ∈ d.pc.completed, completion.coreSlot.toNat = coreSlot ∧ Covers completion.observedIrqStatus v

theorem Working.keeps (h : d.Working coreSlot binding) : d.Keeps coreSlot binding (d.dev.irqStatus coreSlot) :=
  ⟨h.bound, h.started, .inl ⟨UInt32.or_self, h.fresh⟩⟩

theorem Keeps.held (h : d.Keeps coreSlot binding v) : d.Held coreSlot binding v :=
  ⟨h.bound, h.status.imp_left And.left⟩

/-- Outside a harvest the status is published. -/
theorem Keeps.published (h : d.Keeps coreSlot binding v) (hpc : d.pc.completed = []) :
    Covers (d.dev.irqStatus coreSlot) v := by
  rcases h.status with ⟨hcovers, _⟩ | ⟨completion, hmem, _⟩
  · exact hcovers
  · rw [hpc] at hmem
    cases hmem

theorem Keeps.of_published (hbound : d.sys.state.coreBinding[coreSlot]? = some binding)
    (hstarted : ¬ d.Starting coreSlot) (hpc : d.pc.completed = []) (hcovers : Covers (d.dev.irqStatus coreSlot) v) :
    d.Keeps coreSlot binding v := by
  refine ⟨hbound, hstarted, .inl ⟨hcovers, ?_⟩⟩
  rw [hpc]
  exact List.forall_mem_nil _

/-- A step that leaves the worker and the bindings alone. -/
theorem Keeps.others (h : d.Keeps coreSlot binding v) (hpc : d'.pc = d.pc) (hworker : d'.sys.worker = d.sys.worker)
    (hcores : d'.sys.state.coreBinding = d.sys.state.coreBinding)
    (hdev : Covers (d.dev.irqStatus coreSlot) v → Covers (d'.dev.irqStatus coreSlot) v) :
    d'.Keeps coreSlot binding v := by
  refine ⟨by rw [hcores]; exact h.bound, ?_, ?_⟩
  · unfold Starting
    rw [hpc, hworker]
    exact h.started
  · rw [hpc]
    exact h.status.imp_left fun ⟨hcovers, hfresh⟩ => ⟨hdev hcovers, hfresh⟩

/-- Outside the dispatch loop no task is being started. -/
theorem not_starting (hpc : ∀ progress step, d.pc ≠ .dispatch progress step) : ¬ d.Starting coreSlot := by
  rintro ⟨_, progress, step, _, _, hdispatch, _⟩
  exact hpc progress step hdispatch

theorem not_starting_of_worker (hw : ∀ setup, d.sys.worker ≠ .dispatching setup) : ¬ d.Starting coreSlot := by
  rintro ⟨setup, _, _, hdispatching, _⟩
  exact hw setup hdispatching

/-- The core that a dispatch has yet to clear is another one. -/
theorem Keeps.core_ne (h : d.Keeps coreSlot binding v) {setup : DispatchSetup} {progress : Bool} {step : SubmitStep}
    (hw : d.sys.worker = .dispatching setup) (hpc : d.pc = .dispatch progress step) (hstep : step ≠ .cleared) :
    setup.coreSlot ≠ coreSlot :=
  fun he => h.started ⟨setup, progress, step, hw, he, hpc, hstep⟩

theorem Keeps.harvestStep (h : d.Keeps coreSlot binding v) {next : Nat} {completed : List CoreCompletion}
    (hpc : d.pc = .harvest next completed) (hphased : d.Phased) :
    (d.harvestStep next completed).Keeps coreSlot binding v := by
  have hstatus := h.status
  rw [hpc] at hstatus
  unfold Driver.harvestStep
  split
  · rename_i hnext
    have hslot : (UInt8.ofNat next).toNat = next := by
      have hlt : next < 3 := lt_of_lt_of_le hnext (Nat.min_le_right _ _)
      rw [UInt8.toNat_ofNat', Nat.mod_eq_of_lt (by omega)]
    rcases d.dev.takeCompletion_cases next with ⟨_, he⟩ | ⟨core, hcore, _, he⟩
    · rw [he]
      exact ⟨h.bound, not_starting nofun, hstatus⟩
    · rw [he]
      refine ⟨h.bound, not_starting nofun, ?_⟩
      rcases hstatus with ⟨hcovers, hfresh⟩ | ⟨completion, hmem, hsame, hcovers⟩
      · by_cases hthis : next = coreSlot
        · subst hthis
          refine .inr ⟨_, List.mem_append_right _ (List.mem_singleton_self _), hslot, ?_⟩
          rwa [hcore] at hcovers
        · refine .inl ⟨?_, ?_⟩
          · dsimp only
            rwa [RknpuDev.irqStatus_clearCompletionShadow_of_ne hthis]
          · intro completion hmem
            rcases List.mem_append.mp hmem with hmem | hmem
            · exact hfresh completion hmem
            · cases List.mem_singleton.mp hmem
              exact fun hsame => hthis (hslot.symm.trans hsame)
      · exact .inr ⟨completion, List.mem_append_left _ hmem, hsame, hcovers⟩
  · split
    · rename_i hempty
      have hnil : d.pc.completed = [] := by
        rw [hpc]
        exact List.isEmpty_iff.mp hempty
      refine Keeps.of_published h.bound ?_ rfl (h.published hnil)
      exact not_starting_of_worker fun setup hw => hphased.elsewhere hw (hpc ▸ nofun)
    · exact ⟨h.bound, not_starting nofun, hstatus⟩

/-- A dispatch clears the status of its own core, which is another one. -/
theorem Keeps.cleared (h : d.Keeps coreSlot binding v) {setup : DispatchSetup} {progress : Bool}
    {step step' : SubmitStep} (hpc : d.pc = .dispatch progress step) (hw : d.sys.worker = .dispatching setup)
    (hstep : step ≠ .cleared) :
    ({ d with dev := d.dev.clearCompletionShadow setup.coreSlot, pc := .dispatch progress step' } :
      Driver W).Keeps coreSlot binding v := by
  have hne := h.core_ne hw hpc hstep
  refine .of_published h.bound ?_ rfl ?_
  · rintro ⟨setup', _, _, hw', hcore, _⟩
    cases hw.symm.trans hw'
    exact hne hcore
  · rw [RknpuDev.irqStatus_clearCompletionShadow_of_ne hne]
    exact h.published (by rw [hpc]; rfl)

theorem Keeps.decideStep (h : d.Keeps coreSlot binding v) (hqueued : d.sys.state.Queued) {progress : Bool}
    (hpc : d.pc = .dispatch progress .asked) :
    (d.decideStep progress).Keeps coreSlot binding v := by
  have hcovers := h.published (by rw [hpc]; rfl)
  unfold Driver.decideStep
  cases hdec : d.sys.state.dispatchDecision.1 with
  | some setup =>
      have hbinds := (NpuSchedulerState.dispatchDecision_decided hqueued.readyWF).binds hdec
      have hne : setup.coreSlot ≠ coreSlot := by
        rintro rfl
        cases (NpuSchedulerState.mem_idleCores.mp hbinds.idle).2.symm.trans h.bound
      obtain ⟨hworker, hstate⟩ := Sys.decide_eq hdec
      refine Keeps.of_published ?_ ?_ (by rw [hpc]; rfl) hcovers
      · dsimp only
        rw [hstate, hbinds.cores, Std.ExtTreeMap.getElem?_insert_of_ne hne]
        exact h.bound
      · rintro ⟨setup', _, _, hw, hcore, _⟩
        cases hworker.symm.trans hw
        exact hne hcore
  | none =>
      have hstate := Sys.decide_state hqueued hdec
      have hbound : d.sys.decide.state.coreBinding[coreSlot]? = some binding := hstate.symm ▸ h.bound
      dsimp only
      split
      · exact Keeps.of_published hbound (not_starting nofun) rfl hcovers
      · exact Keeps.of_published hbound (not_starting nofun) rfl hcovers

theorem Keeps.worker (h : d.Keeps coreSlot binding v) (hphased : d.Phased) (hqueued : d.sys.state.Queued)
    {act : WorkerAct} (hs : WorkerStep d act d') :
    d'.Keeps coreSlot binding v ∨ ((∃ timeNs, act = .record timeNs) ∧ d.Returns coreSlot binding v) := by
  cases hs with
  | listen hpc => exact .inl (.of_published h.bound (not_starting nofun) rfl (h.published (by rw [hpc]; rfl)))
  | harvestRefused hpc =>
      refine .inl (.of_published h.bound ?_ rfl (h.published (by rw [hpc]; rfl)))
      exact not_starting_of_worker fun setup hw => hphased.elsewhere hw (hpc ▸ nofun)
  | harvest hpc => exact .inl (h.harvestStep hpc hphased)
  | @record completed timeNs sys hpc hsys =>
      have hstatus := h.status
      rw [hpc] at hstatus
      rcases hstatus with ⟨hcovers, hfresh⟩ | hreturned
      · cases Sys.step_cases hsys
        refine .inl (.of_published ?_ (not_starting nofun) rfl hcovers)
        refine (NpuSchedulerState.coreBinding_harvestCompletions ?_).trans h.bound
        intro c hc
        obtain ⟨completion, hmem, rfl⟩ := List.mem_map.mp hc
        exact hfresh completion hmem
      · exact .inr ⟨⟨timeNs, rfl⟩, completed, hpc, h.bound, hreturned⟩
  | wakeHarvested hpc hsys =>
      cases Sys.step_cases hsys
      refine .inl (.of_published ?_ (not_starting_of_worker nofun) rfl (h.published (by rw [hpc]; rfl)))
      exact (congrArg (·[coreSlot]?) (NpuSchedulerState.shrinks_wakeTerminalTasks _ _ _).cores).trans h.bound
  | decide hpc _ => exact .inl (h.decideStep hqueued hpc)
  | refuse hpc hsys =>
      cases Sys.step_cases hsys with
      | @fail setup _ hw =>
          have hne := h.core_ne hw hpc nofun
          refine .inl (.of_published ?_ (not_starting_of_worker nofun) (by rw [hpc]; rfl)
            (h.published (by rw [hpc]; rfl)))
          refine (congrArg (·[coreSlot]?) (NpuSchedulerState.reclassifyTask_frame _ _).1).trans ?_
          exact (Std.ExtTreeMap.getElem?_erase_of_ne hne).trans h.bound
  | wakeFailed hpc hsys =>
      cases Sys.step_cases hsys
      refine .inl (.of_published ?_ (not_starting_of_worker nofun) (by rw [hpc]; rfl)
        (h.published (by rw [hpc]; rfl)))
      exact (congrArg (·[coreSlot]?) (NpuSchedulerState.shrinks_wakeTerminalTasks _ _ _).cores).trans h.bound
  | drain hpc hw => exact .inl (h.cleared hpc hw nofun)
  | clear hpc hw => exact .inl (h.cleared hpc hw nofun)
  | launch hpc hsys =>
      cases Sys.step_cases hsys
      exact .inl (.of_published h.bound (not_starting_of_worker nofun) rfl (h.published (by rw [hpc]; rfl)))
  | check hpc =>
      have hcovers := h.published (by rw [hpc]; rfl)
      refine .inl ?_
      unfold Driver.checkStep
      split
      · exact .of_published h.bound (not_starting nofun) rfl hcovers
      · split
        · exact .of_published h.bound (not_starting nofun) rfl hcovers
        · exact .of_published h.bound (not_starting nofun) rfl hcovers
  | wake hpc _ => exact .inl (.of_published h.bound (not_starting nofun) rfl (h.published (by rw [hpc]; rfl)))

end Driver

/-- The action ioctl asks for a reset. -/
def DriverAct.IsReset : DriverAct W → Prop
  | .command (.action flags _ _) => RknpuAction.tryFrom flags = some .actReset
  | _ => False

theorem irqStatus_runCommand_eq {dev : RknpuDev} {cmd : Command} (h : ¬ (DriverAct.command cmd : DriverAct W).IsReset)
    (c : Nat) : (runCommand dev cmd).irqStatus c = dev.irqStatus c := by
  cases cmd with
  | action flags value regs =>
      unfold runCommand
      dsimp only
      split
      · rfl
      · rename_i action haction
        have hne : action ≠ .actReset := by
          rintro rfl
          exact h haction
        rw [RknpuDev.irqStatus, RknpuDev.base_action dev regs value hne, RknpuDev.irqStatus]
  | memCreate args data =>
      unfold runCommand
      dsimp only
      split <;> rfl
  | _ => rfl

namespace Driver

variable {d d' : Driver W} {coreSlot : Nat} {binding : CoreRunBinding} {v : UInt32}

theorem Keeps.step (h : d.Keeps coreSlot binding v) (hphased : d.Phased) (hqueued : d.sys.state.Queued)
    {a : DriverAct W} (hreset : ¬ a.IsReset) (hs : d.step a = some d') :
    d'.Keeps coreSlot binding v ∨ ((∃ timeNs, a = .worker (.record timeNs)) ∧ d.Returns coreSlot binding v) := by
  cases a with
  | enqueue submit tasks t0Ns waiter timeNs =>
      cases hs
      exact .inl (h.others rfl rfl rfl id)
  | spawn =>
      obtain ⟨⟨_, hpc⟩, hs⟩ := Option.ite_none_right_eq_some.mp hs
      cases hs
      exact .inl (.of_published h.bound (not_starting nofun) rfl (h.published (by rw [hpc]; rfl)))
  | enqueueNotify =>
      obtain ⟨_, hs⟩ := Option.ite_none_right_eq_some.mp hs
      cases hs
      exact .inl (h.others rfl rfl rfl id)
  | abort taskId =>
      cases hs
      exact .inl (h.others rfl rfl (d.sys.state.abortWait_coreBinding taskId) id)
  | take taskId =>
      cases hs
      exact .inl (h.others rfl rfl (d.sys.state.shrinks_takeTerminalSubmit taskId).cores id)
  | irq core intStatus irqTimeNs =>
      obtain ⟨_, hs⟩ := Option.ite_none_right_eq_some.mp hs
      cases hs
      refine .inl (h.others rfl rfl rfl fun hcovers => ?_)
      unfold Driver.irqStep
      dsimp only
      rw [RknpuDev.irqStatus_handleInterruptAt]
      split
      · rw [Covers, ← UInt32.or_assoc, hcovers]
      · exact hcovers
  | irqNotify =>
      obtain ⟨_, hs⟩ := Option.ite_none_right_eq_some.mp hs
      cases hs
      exact .inl (h.others rfl rfl rfl id)
  | command cmd =>
      cases hs
      refine .inl (h.others rfl rfl rfl fun hcovers => ?_)
      dsimp only
      rwa [irqStatus_runCommand_eq hreset]
  | worker act =>
      refine (h.worker hphased hqueued (workerStep_cases hs)).imp_right ?_
      rintro ⟨⟨timeNs, rfl⟩, hreturns⟩
      exact ⟨⟨timeNs, rfl⟩, hreturns⟩

end Driver

/-! ## Whole runs -/

/-- A status published while the core works on its task stays until a harvest returns it for that binding, in every
run without a reset. -/
theorem published_until_harvested {coreCount : Nat} {data : RknpuData} {acts later : List (DriverAct W)}
    {d d' : Driver W} (hrun : (driver W coreCount data).run acts = some d)
    (hlater : (driver W coreCount data).runFrom d later = some d') (hreset : ∀ a ∈ later, ¬ a.IsReset)
    {coreSlot : Nat} {binding : CoreRunBinding} (hworking : d.Working coreSlot binding) :
    d'.Held coreSlot binding (d.dev.irqStatus coreSlot) ∨
      ∃ before timeNs after d₁, later = before ++ .worker (.record timeNs) :: after ∧
        (driver W coreCount data).runFrom d before = some d₁ ∧
        d₁.Returns coreSlot binding (d.dev.irqStatus coreSlot) := by
  have hkeeps : (∀ a ∈ later, ¬ a.IsReset) → d'.Keeps coreSlot binding (d.dev.irqStatus coreSlot) ∨
      ∃ before timeNs after d₁, later = before ++ .worker (.record timeNs) :: after ∧
        (driver W coreCount data).runFrom d before = some d₁ ∧
        d₁.Returns coreSlot binding (d.dev.irqStatus coreSlot) := by
    refine Machine.runFrom_induction (M := driver W coreCount data) (P := fun later d' =>
      (∀ a ∈ later, ¬ a.IsReset) → d'.Keeps coreSlot binding (d.dev.irqStatus coreSlot) ∨
        ∃ before timeNs after d₁, later = before ++ .worker (.record timeNs) :: after ∧
          (driver W coreCount data).runFrom d before = some d₁ ∧
          d₁.Returns coreSlot binding (d.dev.irqStatus coreSlot)) (fun _ => .inl hworking.keeps) ?_ hlater
    intro as d₂ a d₃ has ih hs hno
    have hrun' := Machine.run_append hrun has
    rcases ih fun a' ha' => hno a' (List.mem_append_left _ ha') with hkeeps | ⟨before, timeNs, after, d₁, rfl, hbefore⟩
    · refine (hkeeps.step (Driver.phased_of_run hrun') (Driver.queued_of_run hrun') ?_ hs).imp_right ?_
      · exact hno a (List.mem_append_right _ (List.mem_singleton_self a))
      · rintro ⟨⟨timeNs, rfl⟩, hreturns⟩
        exact ⟨as, timeNs, [], d₂, rfl, has, hreturns⟩
    · exact .inr ⟨before, timeNs, after ++ [a], d₁, List.append_assoc .., hbefore⟩
  exact (hkeeps hreset).imp_left Driver.Keeps.held

/-- One task is bound to core 0, and the driver has not been asked to start it. -/
def boundRun : List (DriverAct Unit) :=
  [.enqueue (twoLanes 1 ⟨0, 1⟩ ⟨0, 0⟩) [plainTask] 0 () 0, .spawn] ++
    ([.listen, .harvest, .harvest, .harvest, .harvest, .decide] : List WorkerAct).map .worker

/-- The task runs and its interrupt has come. -/
def doneRun : List (DriverAct Unit) :=
  boundRun ++ ([.drain, .clear, .launch 0] : List WorkerAct).map .worker ++ [.irq 0 0x300 7]

/-- The binding that both runs give core 0. -/
def firstBinding : CoreRunBinding where
  taskId := 1
  laneSlot := 0
  taskIndex := 0

/-- The next round of the worker takes the status. -/
def takingRun : List (DriverAct Unit) := [.irqNotify, .worker .decide, .worker .listen, .worker .harvest]

theorem published_until_harvested_done : ∃ d d' : Driver Unit,
    (driver Unit 3 RknpuData.new3588).run doneRun = some d ∧ d.dev.irqStatus 0 = 0x300 ∧
    (driver Unit 3 RknpuData.new3588).runFrom d takingRun = some d' ∧ d'.Held 0 firstBinding 0x300 := by
  obtain ⟨d, hrun, h⟩ : ∃ d : Driver Unit, (driver Unit 3 RknpuData.new3588).run doneRun = some d ∧
      (decide (d.sys.state.coreBinding[0]? = some firstBinding ∧ d.dev.irqStatus 0 = 0x300 ∧
        d.pc = .dispatch true .asked ∧ d.sys.worker = .free) &&
        ((driver Unit 3 RknpuData.new3588).runFrom d takingRun).isSome) = true :=
    (Option.any_eq_true _ _).mp (by decide +kernel)
  rw [Bool.and_eq_true, decide_eq_true_eq] at h
  obtain ⟨⟨hbound, hstatus, hpc, hfree⟩, hsome⟩ := h
  obtain ⟨d', hlater⟩ := Option.isSome_iff_exists.mp hsome
  have hworking : d.Working 0 firstBinding := by
    refine ⟨hbound, Driver.not_starting_of_worker fun setup hw => ?_, ?_⟩
    · cases hfree.symm.trans hw
    · rw [hpc]
      exact List.forall_mem_nil _
  refine ⟨d, d', hrun, hstatus, hlater, ?_⟩
  have hreset : ∀ a ∈ takingRun, ¬ a.IsReset := by simp [takingRun, DriverAct.IsReset]
  rcases published_until_harvested hrun hlater hreset hworking with hheld | ⟨before, timeNs, after, _, hsplit, _⟩
  · rwa [hstatus] at hheld
  · have hmem : .worker (.record timeNs) ∈ takingRun := by
      rw [hsplit]
      exact List.mem_append_right _ List.mem_cons_self
    simp [takingRun] at hmem

/-- Core 0 has published `v` under its first binding; the step leaves it `v'` and the binding `binding`. -/
def StepLeaves (v v' : UInt32) (binding : Option CoreRunBinding) (d d' : Driver Unit) : Prop :=
  d.dev.irqStatus 0 = v ∧ d.sys.state.coreBinding[0]? = some firstBinding ∧
    d'.dev.irqStatus 0 = v' ∧ d'.sys.state.coreBinding[0]? = binding

instance (v v' : UInt32) (binding : Option CoreRunBinding) (d d' : Driver Unit) :
    Decidable (StepLeaves v v' binding d d') := inferInstanceAs (Decidable (_ ∧ _))

/-- A status published for a bound core is lost: to the clearing before the task starts, to a reset, or because the
harvest that ends the binding has already taken an earlier status. -/
theorem published_status_lost :
    (∃ d d', (driver Unit 3 RknpuData.new3588).run (boundRun ++ [.irq 0 0x300 7]) = some d ∧
      (driver Unit 3 RknpuData.new3588).step d (.worker .drain) = some d' ∧
      StepLeaves 0x300 0 (some firstBinding) d d') ∧
    (∃ d d', (driver Unit 3 RknpuData.new3588).run doneRun = some d ∧
      (driver Unit 3 RknpuData.new3588).step d (.command (.action 6 0 ⟨0, 0, fun _ => 0⟩)) = some d' ∧
      StepLeaves 0x300 0 (some firstBinding) d d') ∧
    ∃ d d', (driver Unit 3 RknpuData.new3588).run (doneRun ++ takingRun ++ [.irq 0 0xc00 8, .worker .harvest,
        .worker .harvest, .worker .harvest]) = some d ∧
      (driver Unit 3 RknpuData.new3588).step d (.worker (.record fun _ => 9)) = some d' ∧
      StepLeaves 0xc00 0xc00 none d d' := by
  refine ⟨Machine.exists_step ?_, Machine.exists_step ?_, Machine.exists_step ?_⟩
  · decide +kernel
  · decide +kernel
  · decide +kernel

end Rknpu.Service
