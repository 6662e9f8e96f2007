import Rknpu.Axtask.BlockOn

/-!
# No wake is slept through

A wake after the last poll finds the waker stored. It either sets the flag before the section with interrupts off, which
then takes the task back, or finds the task blocked and makes it ready.
-/

namespace Rknpu.Axtask

variable {τ : Type} [DecidableEq τ] {task : τ} {s s' : Blocking τ}

namespace Blocking

structure Inv (task : τ) (s : Blocking τ) : Prop where
  valid : s.cpu.Valid
  ne_idle : task ≠ s.cpu.idle
  /-- A blocked task has not been woken, and its waker is where a wake will find it. -/
  blocked : s.cpu.state task = .blocked → s.stored = true ∧ s.wokenSincePoll = false
  /-- On the way to the section a wake has left its mark, or the waker is still there. -/
  noted : s.pc = .check ∨ s.pc = .block → if s.wokenSincePoll then s.woke = true else s.stored = true

theorem Inv.of_caller (caller : Caller τ) : Inv caller.task (blockOnResched caller).init where
  valid := caller.valid
  ne_idle := caller.ne_idle
  blocked hblocked := by
    have hrun := (caller.valid.running_iff caller.task).mpr caller.current.symm
    cases hrun.symm.trans hblocked
  noted h := by rcases h with h | h <;> cases h

omit [DecidableEq τ] in
/-- A running task is not blocked. -/
theorem Inv.not_blocked (h : Inv task s) (hcurrent : s.cpu.current = task) : s.cpu.state task ≠ .blocked := by
  rw [(h.valid.running_iff task).mpr hcurrent.symm]
  nofun

theorem Inv.block (h : Inv task s) (hcurrent : s.cpu.current = task) (hpc : s.pc = .block) {pick : τ} {cpu : Cpu τ}
    (hs : s.cpu.blockedResched (fun cpu => if s.woke then cpu.unblockTask task else cpu) pick = some cpu) :
    Inv task { s with pc := .clear, cpu } := by
  simp only [Cpu.blockedResched, Option.ite_none_right_eq_some, hcurrent] at hs
  obtain ⟨⟨_, hidle⟩, hs⟩ := hs
  have hswitch : (s.cpu.setState task .blocked).Switching := by
    subst hcurrent
    exact h.valid.setState_current hidle (.inl rfl)
  have hblocked : (s.cpu.setState task .blocked).state task = .blocked := Function.update_self _ _ _
  by_cases hwoke : s.woke = true
  · -- The flag was set before the section: the task takes itself back.
    rw [if_pos hwoke, Cpu.unblockTask_of_blocked hblocked hidle] at hs
    have hready := hswitch.enqueue hidle (by simp [hblocked])
    have htask := Cpu.resched_not_blocked hs Cpu.enqueue_self_not_blocked
    refine ⟨hready.resched hs, ?_, fun hb => absurd hb htask, fun hpc => ?_⟩
    · rw [Cpu.idle_resched hs]
      exact hidle
    · rcases hpc with hpc | hpc <;> cases hpc
  · rw [if_neg hwoke] at hs
    have hnoted := h.noted (.inr hpc)
    have hfresh : s.wokenSincePoll = false := by
      by_contra hne
      rw [Bool.not_eq_false] at hne
      rw [hne, if_pos rfl] at hnoted
      exact hwoke hnoted
    rw [hfresh] at hnoted
    refine ⟨hswitch.resched hs, ?_, fun _ => ⟨by simpa using hnoted, hfresh⟩, fun hpc => ?_⟩
    · rw [Cpu.idle_resched hs]
      exact hidle
    · rcases hpc with hpc | hpc <;> cases hpc

theorem Inv.step {pick : τ} (h : Inv task s) (hs : s.step task pick = some s') : Inv task s' := by
  simp only [Blocking.step, Option.ite_none_right_eq_some] at hs
  obtain ⟨hcurrent, hs⟩ := hs
  have hrun := h.not_blocked hcurrent
  cases hpc : s.pc with
  | clear =>
      simp only [hpc, Option.some.injEq] at hs
      subst hs
      exact ⟨h.valid, h.ne_idle, fun hb => absurd hb hrun, by simp⟩
  | poll =>
      simp only [hpc] at hs
      split at hs
      · cases hs
        exact ⟨h.valid, h.ne_idle, fun hb => absurd hb hrun, by simp⟩
      · cases hs
        exact ⟨h.valid, h.ne_idle, fun hb => absurd hb hrun, by simp⟩
  | check =>
      simp only [hpc, Option.some.injEq] at hs
      subst hs
      exact ⟨h.valid, h.ne_idle, h.blocked, fun _ => h.noted (.inl hpc)⟩
  | block =>
      simp only [hpc, Option.map_eq_some_iff] at hs
      obtain ⟨cpu, hs, rfl⟩ := hs
      exact h.block hcurrent hpc hs
  | finished => simp [hpc] at hs

theorem Inv.wake (h : Inv task s) (notifies keeps : Bool) : Inv task (s.wake task notifies keeps) := by
  unfold Blocking.wake
  by_cases hstored : s.stored = true
  · rw [if_pos hstored]
    refine ⟨h.valid.unblockTask task, ?_, fun hb => absurd hb (Cpu.unblockTask_not_blocked h.ne_idle), fun _ => ?_⟩
    · change task ≠ (s.cpu.unblockTask task).idle
      rw [Cpu.unblockTask, Cpu.idle_putTask]
      exact h.ne_idle
    · simp [unblock]
  · rw [if_neg hstored]
    refine ⟨h.valid, h.ne_idle, fun hb => absurd (h.blocked hb).1 hstored, fun hpc => ?_⟩
    -- The waker is gone, so an earlier wake has taken it and set the flag.
    have hnoted := h.noted hpc
    split at hnoted
    · simpa using hnoted
    · exact absurd hnoted hstored

theorem Inv.cpu {a : Cpu.Act τ} {cpu : Cpu τ} (h : Inv task s) (hs : s.cpu.act task a = some cpu) :
    Inv task { s with cpu } where
  valid := h.valid.act hs
  ne_idle := by
    rw [Cpu.idle_act hs]
    exact h.ne_idle
  blocked hblocked := by
    refine h.blocked ?_
    by_contra hne
    exact Cpu.act_not_blocked hs hne hblocked
  noted := h.noted

end Blocking

theorem inv_of_run {caller : Caller τ} {acts : List (BlockAct τ)} (h : (blockOnResched caller).run acts = some s) :
    s.Inv caller.task := by
  refine Machine.run_induction (P := fun _ s => Blocking.Inv caller.task s) (.of_caller caller) ?_ h
  intro _ s a s' _ hinv hs
  cases a with
  | step pick => exact hinv.step hs
  | wake notifies keeps =>
      cases hs
      exact hinv.wake notifies keeps
  | cpu a =>
      obtain ⟨cpu, hact, rfl⟩ := Option.map_eq_some_iff.mp hs
      exact hinv.cpu hact

theorem block_on_resched_keeps_wakes (caller : Caller τ) (acts : List (BlockAct τ)) (s : Blocking τ)
    (h : (blockOnResched caller).run acts = some s) :
    (s.wokenSincePoll = true → ¬ (s.cpu.state caller.task = .blocked ∧ caller.task ∉ s.cpu.scheduler)) ∧
      s.cpu.scheduler.count caller.task ≤ 1 := by
  have hinv := inv_of_run h
  refine ⟨fun hwoken hblocked => ?_, List.nodup_iff_count_le_one.mp hinv.valid.nodup caller.task⟩
  rw [(hinv.blocked hblocked.1).2] at hwoken
  cases hwoken

/-- The task blocks, and is woken afterwards. -/
theorem block_on_resched_keeps_wakes_blocked :
    ∃ s, (blockOnResched loneCaller).run [.step true, .step true, .step true, .step false, .wake true true] = some s ∧
      s.wokenSincePoll = true ∧ s.cpu.current = false ∧ s.cpu.scheduler = [true] ∧
      ¬ (s.cpu.state true = .blocked ∧ true ∉ s.cpu.scheduler) := by
  have hrun : ∃ s, (blockOnResched loneCaller).run
      [.step true, .step true, .step true, .step false, .wake true true] = some s ∧
        s.wokenSincePoll = true ∧ s.cpu.current = false ∧ s.cpu.scheduler = [true] := ⟨_, rfl, rfl, rfl, rfl⟩
  obtain ⟨s, hrun, hwoken, hcurrent, hqueue⟩ := hrun
  exact ⟨s, hrun, hwoken, hcurrent, hqueue, (block_on_resched_keeps_wakes loneCaller _ s hrun).1 hwoken⟩

end Rknpu.Axtask
