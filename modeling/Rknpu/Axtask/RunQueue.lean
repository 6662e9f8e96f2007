import Rknpu.Lib.Machine

/-!
# The run queue of a single CPU

A translation of `axtask/src/run_queue.rs` for a build without `smp`: one run queue, and the state of every task. Which
ready task the scheduler picks is left open, so that the results hold for every scheduler. `resched_on_wake` and the
pending preemption only decide when a task is preempted; here it may be preempted at any time.

All functions of this file run with interrupts off. What they leave behind is `Cpu.Valid`: the queue holds exactly the
ready tasks, each once, and the current task is the one that runs.
-/

namespace Rknpu.Axtask

inductive TaskState where
  | running
  | ready
  | blocked
  | exited
deriving DecidableEq, Repr

structure Cpu (τ : Type) where
  idle : τ
  current : τ
  scheduler : List τ
  /-- A task that does not exist yet counts as exited. -/
  state : τ → TaskState

namespace Cpu

variable {τ : Type} [DecidableEq τ]

/-! ## Operations -/

def setState (cpu : Cpu τ) (task : τ) (state : TaskState) : Cpu τ :=
  { cpu with state := Function.update cpu.state task state }

/-- A task made ready and added to the scheduler. -/
def enqueue (cpu : Cpu τ) (task : τ) : Cpu τ where
  idle := cpu.idle
  current := cpu.current
  scheduler := cpu.scheduler ++ [task]
  state := Function.update cpu.state task .ready

/-- `switch_to`, with the task taken from the queue. -/
def switchTo (cpu : Cpu τ) (next : τ) : Cpu τ where
  idle := cpu.idle
  current := next
  scheduler := cpu.scheduler.erase next
  state := Function.update cpu.state next .running

/-- The idle task stands in for an empty queue. `none` if the scheduler cannot pick this task, or if the assertion that
the next task is ready fails. -/
def resched (cpu : Cpu τ) (pick : τ) : Option (Cpu τ) :=
  if cpu.scheduler = [] then if cpu.state cpu.idle = .ready then some (cpu.switchTo cpu.idle) else none
  else if pick ∈ cpu.scheduler ∧ cpu.state pick = .ready then some (cpu.switchTo pick)
  else none

def putTaskWithState (cpu : Cpu τ) (task : τ) (currentState : TaskState) : Cpu τ :=
  if cpu.state task = currentState then
    if task = cpu.idle then cpu.setState task .ready else cpu.enqueue task
  else cpu

def unblockTask (cpu : Cpu τ) (task : τ) : Cpu τ := cpu.putTaskWithState task .blocked

/-- `preempt_resched` does the same. -/
def yieldCurrent (cpu : Cpu τ) (pick : τ) : Option (Cpu τ) :=
  if cpu.state cpu.current = .running then (cpu.putTaskWithState cpu.current .running).resched pick else none

/-- The assertions come first, then the closure sees the task blocked. -/
def blockedResched (cpu : Cpu τ) (beforeBlock : Cpu τ → Cpu τ) (pick : τ) : Option (Cpu τ) :=
  if cpu.state cpu.current = .running ∧ cpu.current ≠ cpu.idle then
    (beforeBlock (cpu.setState cpu.current .blocked)).resched pick
  else none

def exitCurrent (cpu : Cpu τ) (pick : τ) : Option (Cpu τ) :=
  if cpu.state cpu.current = .running ∧ cpu.current ≠ cpu.idle then (cpu.setState cpu.current .exited).resched pick
  else none

/-- A new task. -/
def addTask (cpu : Cpu τ) (task : τ) : Option (Cpu τ) :=
  if cpu.state task = .exited then some (cpu.enqueue task) else none

/-! ## What the other tasks do -/

inductive Act (τ : Type) where
  | yield (pick : τ)
  | block (pick : τ)
  | exit (pick : τ)
  | unblock (task : τ)
  | spawn (task : τ)

/-- Everything but what `self` does by itself. A preemption of `self` is here. -/
def act (cpu : Cpu τ) (self : τ) : Act τ → Option (Cpu τ)
  | .yield pick => cpu.yieldCurrent pick
  | .block pick => if cpu.current = self then none else cpu.blockedResched id pick
  | .exit pick => if cpu.current = self then none else cpu.exitCurrent pick
  | .unblock task => if task = self then none else some (cpu.unblockTask task)
  | .spawn task => cpu.addTask task

/-! ## Validity -/

structure Valid (cpu : Cpu τ) : Prop where
  nodup : cpu.scheduler.Nodup
  mem_iff : ∀ task, task ∈ cpu.scheduler ↔ task ≠ cpu.idle ∧ cpu.state task = .ready
  running_iff : ∀ task, cpu.state task = .running ↔ task = cpu.current
  idle_ready : cpu.idle ≠ cpu.current → cpu.state cpu.idle = .ready

/-- Between the end of one task's turn and the next: no task runs. -/
structure Switching (cpu : Cpu τ) : Prop where
  nodup : cpu.scheduler.Nodup
  mem_iff : ∀ task, task ∈ cpu.scheduler ↔ task ≠ cpu.idle ∧ cpu.state task = .ready
  not_running : ∀ task, cpu.state task ≠ .running
  idle_ready : cpu.state cpu.idle = .ready

variable {cpu cpu' : Cpu τ} {task self pick : τ}

theorem resched_eq_some (h : cpu.resched pick = some cpu') :
    ∃ next, cpu.state next = .ready ∧ cpu' = cpu.switchTo next := by
  unfold resched at h
  split at h
  · split at h
    · exact ⟨cpu.idle, ‹_›, (Option.some.inj h).symm⟩
    · cases h
  · split at h
    · exact ⟨pick, And.right ‹_›, (Option.some.inj h).symm⟩
    · cases h

theorem Switching.switchTo {next : τ} (h : cpu.Switching) : (cpu.switchTo next).Valid where
  nodup := h.nodup.erase next
  mem_iff task := by
    change task ∈ cpu.scheduler.erase next ↔ task ≠ cpu.idle ∧ Function.update cpu.state next .running task = .ready
    rw [h.nodup.mem_erase_iff, h.mem_iff]
    by_cases heq : task = next
    · simp [heq]
    · simp [heq]
  running_iff task := by
    change Function.update cpu.state next .running task = .running ↔ task = next
    by_cases heq : task = next
    · simp [heq]
    · simp [heq, h.not_running task]
  idle_ready hne := (Function.update_of_ne hne _ _).trans h.idle_ready

theorem Switching.resched (h : cpu.Switching) (hs : cpu.resched pick = some cpu') : cpu'.Valid := by
  obtain ⟨next, _, rfl⟩ := resched_eq_some hs
  exact h.switchTo

/-- No assertion stops a switch: every pick of the scheduler can be taken. -/
theorem Switching.resched_isSome (h : cpu.Switching) (hpick : cpu.scheduler ≠ [] → pick ∈ cpu.scheduler) :
    (cpu.resched pick).isSome := by
  by_cases hempty : cpu.scheduler = []
  · simp [Cpu.resched, hempty, h.idle_ready]
  · simp [Cpu.resched, hempty, hpick hempty, ((h.mem_iff pick).mp (hpick hempty)).2]

/-! ### Leaving the CPU -/

/-- The current task goes elsewhere. -/
theorem Valid.setState_current {state : TaskState} (h : cpu.Valid) (hidle : cpu.current ≠ cpu.idle)
    (hstate : state = .blocked ∨ state = .exited) : (cpu.setState cpu.current state).Switching where
  nodup := h.nodup
  mem_iff task := by
    change task ∈ cpu.scheduler ↔ task ≠ cpu.idle ∧ Function.update cpu.state cpu.current state task = .ready
    rw [h.mem_iff]
    by_cases heq : task = cpu.current
    · have hrun := (h.running_iff cpu.current).mpr rfl
      rcases hstate with rfl | rfl <;> simp [heq, hrun]
    · simp [heq]
  not_running task := by
    change Function.update cpu.state cpu.current state task ≠ .running
    by_cases heq : task = cpu.current
    · rcases hstate with rfl | rfl <;> simp [heq]
    · simp [heq, h.running_iff task]
  idle_ready := (Function.update_of_ne hidle.symm _ _).trans (h.idle_ready hidle.symm)

theorem mem_enqueue_iff (h : ∀ t, t ∈ cpu.scheduler ↔ t ≠ cpu.idle ∧ cpu.state t = .ready) (hidle : task ≠ cpu.idle)
    (t : τ) : t ∈ (cpu.enqueue task).scheduler ↔ t ≠ cpu.idle ∧ (cpu.enqueue task).state t = .ready := by
  change t ∈ cpu.scheduler ++ [task] ↔ t ≠ cpu.idle ∧ Function.update cpu.state task .ready t = .ready
  by_cases heq : t = task
  · simp [heq, hidle]
  · simp [heq, h]

theorem nodup_enqueue (hnodup : cpu.scheduler.Nodup) (htask : task ∉ cpu.scheduler) :
    (cpu.enqueue task).scheduler.Nodup :=
  hnodup.append (List.nodup_singleton task) (List.disjoint_singleton.mpr htask)

/-- A task that is not ready yet is made ready. -/
theorem Switching.enqueue (h : cpu.Switching) (hidle : task ≠ cpu.idle) (hready : cpu.state task ≠ .ready) :
    (cpu.enqueue task).Switching where
  nodup := nodup_enqueue h.nodup fun hmem => hready ((h.mem_iff task).mp hmem).2
  mem_iff := mem_enqueue_iff h.mem_iff hidle
  not_running t := by
    change Function.update cpu.state task .ready t ≠ .running
    by_cases heq : t = task
    · simp [heq]
    · simp [heq, h.not_running t]
  idle_ready := (Function.update_of_ne hidle.symm _ _).trans h.idle_ready

theorem Valid.enqueue (h : cpu.Valid) (hidle : task ≠ cpu.idle) (hready : cpu.state task ≠ .ready)
    (hcurrent : task ≠ cpu.current) : (cpu.enqueue task).Valid where
  nodup := nodup_enqueue h.nodup fun hmem => hready ((h.mem_iff task).mp hmem).2
  mem_iff := mem_enqueue_iff h.mem_iff hidle
  running_iff t := by
    change Function.update cpu.state task .ready t = .running ↔ t = cpu.current
    by_cases heq : t = task
    · simp [heq, hcurrent]
    · simp [heq, h.running_iff t]
  idle_ready hne := (Function.update_of_ne hidle.symm _ _).trans (h.idle_ready hne)

/-- The current task is put back. -/
theorem Valid.putTask_current (h : cpu.Valid) : (cpu.putTaskWithState cpu.current .running).Switching := by
  have hrun : cpu.state cpu.current = .running := (h.running_iff _).mpr rfl
  rw [putTaskWithState, if_pos hrun]
  split
  · rename_i hidle
    refine ⟨h.nodup, fun t => ?_, fun t => ?_, ?_⟩
    · change t ∈ cpu.scheduler ↔ t ≠ cpu.idle ∧ Function.update cpu.state cpu.current .ready t = .ready
      rw [h.mem_iff]
      by_cases heq : t = cpu.current
      · simp [heq, hidle]
      · simp [heq]
    · change Function.update cpu.state cpu.current .ready t ≠ .running
      by_cases heq : t = cpu.current
      · simp [heq]
      · simp [heq, h.running_iff t]
    · change Function.update cpu.state cpu.current .ready cpu.idle = .ready
      rw [hidle, Function.update_self]
  · rename_i hidle
    refine ⟨nodup_enqueue h.nodup fun hmem => ?_, mem_enqueue_iff h.mem_iff hidle, fun t => ?_, ?_⟩
    · have hready := ((h.mem_iff _).mp hmem).2
      rw [hrun] at hready
      cases hready
    · change Function.update cpu.state cpu.current .ready t ≠ .running
      by_cases heq : t = cpu.current
      · simp [heq]
      · simp [heq, h.running_iff t]
    · change Function.update cpu.state cpu.current .ready cpu.idle = .ready
      rw [Function.update_of_ne (Ne.symm hidle)]
      exact h.idle_ready (Ne.symm hidle)

/-! ### Wakes -/

theorem unblockTask_of_blocked (h : cpu.state task = .blocked) (hidle : task ≠ cpu.idle) :
    cpu.unblockTask task = cpu.enqueue task := by
  rw [unblockTask, putTaskWithState, if_pos h, if_neg hidle]

theorem unblockTask_of_ne (h : cpu.state task ≠ .blocked) : cpu.unblockTask task = cpu := by
  rw [unblockTask, putTaskWithState, if_neg h]

theorem Valid.idle_ne_blocked (h : cpu.Valid) : cpu.state cpu.idle ≠ .blocked := by
  by_cases hcur : cpu.idle = cpu.current
  · rw [(h.running_iff _).mpr hcur]
    nofun
  · rw [h.idle_ready hcur]
    nofun

theorem Valid.unblockTask (h : cpu.Valid) (task : τ) : (cpu.unblockTask task).Valid := by
  by_cases hblocked : cpu.state task = .blocked
  · have hidle : task ≠ cpu.idle := by
      rintro rfl
      exact h.idle_ne_blocked hblocked
    rw [unblockTask_of_blocked hblocked hidle]
    refine h.enqueue hidle ?_ ?_
    · rw [hblocked]
      nofun
    · rintro rfl
      rw [(h.running_iff _).mpr rfl] at hblocked
      cases hblocked
  · rwa [unblockTask_of_ne hblocked]

/-! ### Whole steps -/

theorem Valid.yieldCurrent (h : cpu.Valid) (hs : cpu.yieldCurrent pick = some cpu') : cpu'.Valid := by
  rw [Cpu.yieldCurrent, if_pos ((h.running_iff _).mpr rfl)] at hs
  exact h.putTask_current.resched hs

theorem Valid.act (h : cpu.Valid) {a : Act τ} (hs : cpu.act self a = some cpu') : cpu'.Valid := by
  cases a with
  | yield pick => exact h.yieldCurrent hs
  | block pick =>
      simp only [Cpu.act, blockedResched, Option.ite_none_left_eq_some, Option.ite_none_right_eq_some] at hs
      exact (h.setState_current hs.2.1.2 (.inl rfl)).resched hs.2.2
  | exit pick =>
      simp only [Cpu.act, exitCurrent, Option.ite_none_left_eq_some, Option.ite_none_right_eq_some] at hs
      exact (h.setState_current hs.2.1.2 (.inr rfl)).resched hs.2.2
  | unblock task =>
      simp only [Cpu.act, Option.ite_none_left_eq_some, Option.some.injEq] at hs
      rw [← hs.2]
      exact h.unblockTask task
  | spawn task =>
      simp only [Cpu.act, addTask, Option.ite_none_right_eq_some, Option.some.injEq] at hs
      obtain ⟨hexited, rfl⟩ := hs
      refine h.enqueue ?_ ?_ ?_
      · rintro rfl
        by_cases hcur : cpu.idle = cpu.current
        · rw [(h.running_iff _).mpr hcur] at hexited
          cases hexited
        · rw [h.idle_ready hcur] at hexited
          cases hexited
      · rw [hexited]
        nofun
      · rintro rfl
        rw [(h.running_iff _).mpr rfl] at hexited
        cases hexited

/-! ### The task under consideration -/

theorem resched_not_blocked (hs : cpu.resched pick = some cpu') (h : cpu.state self ≠ .blocked) :
    cpu'.state self ≠ .blocked := by
  obtain ⟨next, _, rfl⟩ := resched_eq_some hs
  change Function.update cpu.state next .running self ≠ .blocked
  by_cases heq : self = next
  · simp [heq]
  · simpa [heq] using h

theorem setState_not_blocked {state : TaskState} (h : cpu.state self ≠ .blocked)
    (hstate : task = self → state ≠ .blocked) : (cpu.setState task state).state self ≠ .blocked := by
  change Function.update cpu.state task state self ≠ .blocked
  by_cases heq : self = task
  · simpa [heq] using hstate heq.symm
  · simpa [heq] using h

theorem enqueue_not_blocked (h : cpu.state self ≠ .blocked) : (cpu.enqueue task).state self ≠ .blocked := by
  change Function.update cpu.state task .ready self ≠ .blocked
  by_cases heq : self = task
  · simp [heq]
  · simpa [heq] using h

theorem putTask_not_blocked {state : TaskState} (h : cpu.state self ≠ .blocked) :
    (cpu.putTaskWithState task state).state self ≠ .blocked := by
  unfold putTaskWithState
  split
  · split
    · exact setState_not_blocked h nofun
    · exact enqueue_not_blocked h
  · exact h

theorem enqueue_self_not_blocked : (cpu.enqueue self).state self ≠ .blocked := by
  change Function.update cpu.state self .ready self ≠ .blocked
  simp

theorem unblockTask_not_blocked (hidle : self ≠ cpu.idle) : (cpu.unblockTask self).state self ≠ .blocked := by
  by_cases hblocked : cpu.state self = .blocked
  · rw [unblockTask_of_blocked hblocked hidle]
    exact enqueue_self_not_blocked
  · rwa [unblockTask_of_ne hblocked]

/-- Only the task itself blocks. -/
theorem act_not_blocked {a : Act τ} (hs : cpu.act self a = some cpu') (h : cpu.state self ≠ .blocked) :
    cpu'.state self ≠ .blocked := by
  cases a with
  | yield pick =>
      simp only [Cpu.act, yieldCurrent, Option.ite_none_right_eq_some] at hs
      exact resched_not_blocked hs.2 (putTask_not_blocked h)
  | block pick =>
      simp only [Cpu.act, blockedResched, Option.ite_none_left_eq_some, Option.ite_none_right_eq_some] at hs
      exact resched_not_blocked hs.2.2 (setState_not_blocked h fun heq => absurd heq hs.1)
  | exit pick =>
      simp only [Cpu.act, exitCurrent, Option.ite_none_left_eq_some, Option.ite_none_right_eq_some] at hs
      exact resched_not_blocked hs.2.2 (setState_not_blocked h nofun)
  | unblock task =>
      simp only [Cpu.act, Option.ite_none_left_eq_some, Option.some.injEq] at hs
      rw [← hs.2]
      exact putTask_not_blocked h
  | spawn task =>
      simp only [Cpu.act, addTask, Option.ite_none_right_eq_some, Option.some.injEq] at hs
      rw [← hs.2]
      exact enqueue_not_blocked h

/-! ### The idle task -/

theorem idle_resched (hs : cpu.resched pick = some cpu') : cpu'.idle = cpu.idle := by
  obtain ⟨next, _, rfl⟩ := resched_eq_some hs
  rfl

theorem idle_putTask (task : τ) (state : TaskState) : (cpu.putTaskWithState task state).idle = cpu.idle := by
  unfold putTaskWithState
  split
  · split <;> rfl
  · rfl

theorem idle_act {a : Act τ} (hs : cpu.act self a = some cpu') : cpu'.idle = cpu.idle := by
  cases a with
  | yield pick =>
      simp only [Cpu.act, yieldCurrent, Option.ite_none_right_eq_some] at hs
      exact (idle_resched hs.2).trans (idle_putTask _ _)
  | block pick =>
      simp only [Cpu.act, blockedResched, Option.ite_none_left_eq_some, Option.ite_none_right_eq_some] at hs
      exact (idle_resched hs.2.2).trans rfl
  | exit pick =>
      simp only [Cpu.act, exitCurrent, Option.ite_none_left_eq_some, Option.ite_none_right_eq_some] at hs
      exact (idle_resched hs.2.2).trans rfl
  | unblock task =>
      simp only [Cpu.act, Option.ite_none_left_eq_some, Option.some.injEq] at hs
      rw [← hs.2]
      exact idle_putTask _ _
  | spawn task =>
      simp only [Cpu.act, addTask, Option.ite_none_right_eq_some, Option.some.injEq] at hs
      rw [← hs.2]
      rfl

end Cpu

/-- A task on its CPU, about to call a function that may block it. -/
structure Caller (τ : Type) [DecidableEq τ] where
  cpu : Cpu τ
  task : τ
  valid : cpu.Valid
  current : cpu.current = task
  ne_idle : task ≠ cpu.idle

/-- The task `true` runs, and the idle task `false` is the only other one. -/
def loneCaller : Caller Bool where
  cpu := ⟨false, true, [], fun task => if task then .running else .ready⟩
  task := true
  valid := ⟨List.nodup_nil, by decide, by decide, fun _ => rfl⟩
  current := rfl
  ne_idle := by decide

end Rknpu.Axtask
