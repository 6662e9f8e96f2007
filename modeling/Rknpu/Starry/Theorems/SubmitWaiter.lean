import Rknpu.Starry.SubmitWaiter

/-!
# The wait queue of a submit

`block_on` wakes the thread as soon as it blocks it, so `wait_if` returns at the next turn of the thread with its entry
still in the queue. Until `complete` every round of the loop of `wait` leaves one more.
-/

namespace Rknpu.Starry

open Axtask

/-- A call of `wait_if` has begun and has no entry yet. -/
def WaitPc.fresh : WaitPc → Nat
  | .poll true | .register true | .lock => 1
  | _ => 0

def WaitPc.Returned (pc : WaitPc) : Prop := ∃ interrupted, pc = .returned interrupted

namespace Waiter

variable {τ : Type} [DecidableEq τ] {task : τ} {s s' : Waiter τ}

@[simp] theorem wakeCalls_pc (calls : List Nat) : (s.wakeCalls task calls).pc = s.pc := by
  unfold wakeCalls
  split <;> rfl

@[simp] theorem wakeCalls_done (calls : List Nat) : (s.wakeCalls task calls).done = s.done := by
  unfold wakeCalls
  split <;> rfl

@[simp] theorem wakeCalls_queue (calls : List Nat) : (s.wakeCalls task calls).queue = s.queue := by
  unfold wakeCalls
  split <;> rfl

@[simp] theorem wakeCalls_calls (calls : List Nat) : (s.wakeCalls task calls).calls = s.calls := by
  unfold wakeCalls
  split <;> rfl

@[simp] theorem wakeCalls_completing (calls : List Nat) : (s.wakeCalls task calls).completing = s.completing := by
  unfold wakeCalls
  split <;> rfl

end Waiter

theorem length_wakeEntries_le (mask : UInt32) (count : Nat) (queue : List Entry) :
    (wakeEntries mask count queue).1.length ≤ queue.length := by
  induction queue generalizing count with
  | nil => simp [wakeEntries]
  | cons entry queue ih =>
      simp only [wakeEntries]
      split
      · simpa using ih count
      · exact (ih (count - 1)).trans (Nat.le_succ _)

namespace Waiter

variable {τ : Type} [DecidableEq τ] {task : τ} {s s' : Waiter τ}

/-- Until `complete`, the calls of `wait_if` and the entries of the queue correspond. -/
structure Inv (s : Waiter τ) : Prop where
  completing : s.done = false → s.completing = 0
  entries : s.done = false → ¬ s.pc.Returned → s.queue.length + s.pc.fresh = s.calls

/-- What a step of the thread does to the data of the waiter. -/
theorem step_cases {pick : τ} (hs : s.step task pick = some s') :
    s'.done = s.done ∧ s'.completing = s.completing ∧
      (s.pc = .lock ∧ s.done = false ∧ s'.pc = .pending ∧ s'.calls = s.calls ∧
          s'.queue = s.queue ++ [⟨s.calls, submitWaitMask⟩] ∨
        s'.queue = s.queue ∧ (s.pc = .lock → s.done = true) ∧
          (s.done = false → ¬ s'.pc.Returned → ¬ s.pc.Returned ∧ s'.calls + s.pc.fresh = s.calls + s'.pc.fresh)) := by
  simp only [step, Option.ite_none_right_eq_some] at hs
  obtain ⟨_, hs⟩ := hs
  cases hpc : s.pc with
  | check =>
      simp only [hpc] at hs
      split at hs <;> cases hs <;> simp_all [WaitPc.fresh, WaitPc.Returned]
  | poll first =>
      simp only [hpc] at hs
      split at hs <;> cases hs <;> cases first <;> simp_all [WaitPc.fresh, WaitPc.Returned]
  | register first =>
      simp only [hpc] at hs
      cases hs
      cases first <;> simp_all [WaitPc.fresh, WaitPc.Returned]
  | lock =>
      simp only [hpc] at hs
      split at hs <;> cases hs <;> simp_all [WaitPc.fresh, WaitPc.Returned]
  | pending =>
      simp only [hpc] at hs
      split at hs
      · obtain ⟨cpu, _, rfl⟩ := Option.map_eq_some_iff.mp hs
        simp [WaitPc.fresh, WaitPc.Returned]
      · cases hs
        simp [WaitPc.fresh, WaitPc.Returned]
  | block =>
      simp only [hpc] at hs
      obtain ⟨cpu, _, rfl⟩ := Option.map_eq_some_iff.mp hs
      simp [WaitPc.fresh, WaitPc.Returned]
  | returned interrupted => simp [hpc] at hs

theorem Inv.step {pick : τ} (h : s.Inv) (hs : s.step task pick = some s') : s'.Inv := by
  obtain ⟨hdone, hcompleting, hcases⟩ := step_cases hs
  refine ⟨fun hd => ?_, fun hd hret => ?_⟩
  · rw [hcompleting]
    exact h.completing (hdone ▸ hd)
  · rw [hdone] at hd
    rcases hcases with ⟨hpc, _, hpc', hcalls, hqueue⟩ | ⟨hqueue, _, hcount⟩
    · have hentries := h.entries hd (by simp [hpc, WaitPc.Returned])
      simp only [hpc, WaitPc.fresh] at hentries
      simp [hqueue, hpc', hcalls, WaitPc.fresh, hentries]
    · obtain ⟨hbefore, hcalls⟩ := hcount hd hret
      have hentries := h.entries hd hbefore
      rw [hqueue]
      omega

omit [DecidableEq τ] in
theorem Inv.store (s : Waiter τ) : s.store.Inv := ⟨nofun, nofun⟩

/-- The queue is woken only after `done` is stored. -/
theorem Inv.wake (h : s.Inv) (hs : s.wake task = some s') : s'.Inv := by
  simp only [Waiter.wake, Option.ite_none_left_eq_some, Option.some.injEq] at hs
  obtain ⟨hne, rfl⟩ := hs
  have hdone : s.done ≠ false := fun hd => hne (h.completing hd)
  exact ⟨fun hd => absurd hd (by simpa using hdone), fun hd => absurd hd (by simpa using hdone)⟩

theorem Inv.wakeInterrupted (h : s.Inv) (hs : s.wakeInterrupted task = some s') : s'.Inv := by
  simp only [Waiter.wakeInterrupted, Option.ite_none_left_eq_some, Option.some.injEq] at hs
  obtain ⟨_, rfl⟩ := hs
  exact ⟨by simpa using h.completing, by simpa using h.entries⟩

end Waiter

variable {τ : Type} [DecidableEq τ]

theorem waiter_inv_of_run {caller : Caller τ} {acts : List (WaitAct τ)} {s : Waiter τ}
    (h : (submitWaiter caller).run acts = some s) : s.Inv := by
  refine Machine.run_induction (P := fun _ s => Waiter.Inv s) ⟨fun _ => rfl, fun _ _ => rfl⟩ ?_ h
  intro _ s a s' _ hinv hs
  cases a with
  | step pick => exact hinv.step hs
  | store =>
      cases hs
      exact .store s
  | wake => exact hinv.wake hs
  | interrupt =>
      cases hs
      exact ⟨hinv.completing, hinv.entries⟩
  | wakeInterrupted => exact hinv.wakeInterrupted hs
  | cpu a =>
      obtain ⟨cpu, _, rfl⟩ := Option.map_eq_some_iff.mp hs
      exact ⟨hinv.completing, hinv.entries⟩

/-- A second call of `wait_if` finds the entry of the first. -/
theorem Waiter.Inv.step_le_one_iff {task pick : τ} {s s' : Waiter τ} (h : s.Inv) (hle : s.queue.length ≤ 1)
    (hs : s.step task pick = some s') : s'.queue.length ≤ 1 ↔ (s.pc = .lock → 2 ≤ s.calls → s.done = true) := by
  obtain ⟨_, _, ⟨hpc, hdone, _, _, hqueue⟩ | ⟨hqueue, hdone, _⟩⟩ := Waiter.step_cases hs
  · have hentries := h.entries hdone (by simp [hpc, WaitPc.Returned])
    simp only [hpc, WaitPc.fresh] at hentries
    rw [hqueue, List.length_append, List.length_singleton]
    constructor
    · intro hlen _ hcalls
      omega
    · intro hmeets
      by_contra hlen
      have hcalls : 2 ≤ s.calls := by omega
      cases hdone.symm.trans (hmeets hpc hcalls)
  · rw [hqueue]
    exact ⟨fun _ hpc _ => hdone hpc, fun _ => hle⟩

/-- Nothing but the thread adds entries. -/
theorem submitWaiter_length_le {caller : Caller τ} {a : WaitAct τ} {s s' : Waiter τ} (ha : ∀ pick, a ≠ .step pick)
    (hs : (submitWaiter caller).step s a = some s') : s'.queue.length ≤ s.queue.length := by
  cases a with
  | step pick => exact absurd rfl (ha pick)
  | store =>
      cases hs
      exact le_rfl
  | wake =>
      simp only [submitWaiter, Waiter.wake, Option.ite_none_left_eq_some, Option.some.injEq] at hs
      obtain ⟨_, rfl⟩ := hs
      exact length_wakeEntries_le _ _ _
  | interrupt =>
      cases hs
      exact le_rfl
  | wakeInterrupted =>
      simp only [submitWaiter, Waiter.wakeInterrupted, Option.ite_none_left_eq_some, Option.some.injEq] at hs
      obtain ⟨_, rfl⟩ := hs
      simp
  | cpu a =>
      obtain ⟨cpu, _, rfl⟩ := Option.map_eq_some_iff.mp hs
      exact le_rfl

/-- The queue stays at one entry exactly when `done` is stored before a second call of `wait_if` takes the lock. -/
theorem wait_queue_le_one_iff (caller : Caller τ) (acts : List (WaitAct τ)) (s : Waiter τ)
    (h : (submitWaiter caller).run acts = some s) :
    (∀ before after s, acts = before ++ after → (submitWaiter caller).run before = some s → s.queue.length ≤ 1) ↔
      ∀ s pick, (submitWaiter caller).Takes acts s (.step pick) → s.pc = .lock → 2 ≤ s.calls → s.done = true := by
  have hiff := Machine.run_forall_iff (P := fun s => s.queue.length ≤ 1)
    (C := fun s a => ∀ pick, a = .step pick → s.pc = .lock → 2 ≤ s.calls → s.done = true) (Nat.zero_le 1) ?_ h
  · rw [hiff]
    constructor
    · exact fun hmeets s pick htakes => hmeets s _ htakes pick rfl
    · rintro hmeets s _ htakes pick rfl
      exact hmeets s pick htakes
  · intro before s a s' hrun hle hs
    by_cases ha : ∃ pick, a = .step pick
    · obtain ⟨pick, rfl⟩ := ha
      rw [(waiter_inv_of_run hrun).step_le_one_iff hle hs]
      exact ⟨fun hmeets _ _ => hmeets, fun hmeets => hmeets pick rfl⟩
    · have hlen := submitWaiter_length_le (fun pick he => ha ⟨pick, he⟩) hs
      exact ⟨fun _ pick he => absurd ⟨pick, he⟩ ha, fun _ => hlen.trans hle⟩

/-- The submit completes in the first call of `wait_if`. -/
def completedRun : List (WaitAct Bool) := List.replicate 4 (.step true) ++ [.store, .wake] ++ List.replicate 4 (.step true)

theorem wait_queue_le_one_completed :
    ∃ s, (submitWaiter loneCaller).run completedRun = some s ∧ s.pc = .returned false ∧
      ((∀ before after s', completedRun = before ++ after → (submitWaiter loneCaller).run before = some s' →
          s'.queue.length ≤ 1) ↔
        ∀ s' pick, (submitWaiter loneCaller).Takes completedRun s' (.step pick) → s'.pc = .lock → 2 ≤ s'.calls →
          s'.done = true) :=
  ⟨_, rfl, rfl, wait_queue_le_one_iff loneCaller _ _ rfl⟩

/-- With no `complete`, the second round of the loop leaves a second entry. -/
theorem wait_queue_holds_two :
    ∃ s, (submitWaiter loneCaller).run (List.replicate 12 (.step true)) = some s ∧ s.done = false ∧
      s.queue = [⟨1, submitWaitMask⟩, ⟨2, submitWaitMask⟩] :=
  ⟨_, rfl, rfl, rfl⟩

/-! ## How long the queue gets -/

/-- The thread is the only one to run. -/
structure Lone (cpu : Cpu Bool) : Prop where
  idle : cpu.idle = false
  current : cpu.current = true
  scheduler : cpu.scheduler = []
  running : cpu.state true = .running

/-- It takes itself back from the scheduler. -/
theorem Lone.blockedResched {cpu : Cpu Bool} (h : Lone cpu) :
    ∃ cpu', cpu.blockedResched (fun cpu => cpu.unblockTask true) true = some cpu' ∧ Lone cpu' := by
  obtain ⟨idle, current, scheduler, state⟩ := cpu
  obtain ⟨rfl, rfl, rfl, hrunning⟩ := h
  refine ⟨⟨false, true, [], Function.update (Function.update (Function.update state true .blocked) true .ready) true
    .running⟩, ?_, ⟨rfl, rfl, rfl, by simp⟩⟩
  simp at hrunning
  simp [Cpu.blockedResched, Cpu.setState, Cpu.unblockTask, Cpu.putTaskWithState, Cpu.enqueue, Cpu.resched, Cpu.switchTo,
    hrunning]

/-- The thread is back at the loop, with nothing to end it. -/
structure Waiter.Looping (s : Waiter Bool) : Prop where
  cpu : Lone s.cpu
  pc : s.pc = .check
  done : s.done = false
  interrupted : s.interrupted = false

/-- A round of the loop: up to the lock, the entry, the turn that the thread gives up, and the second poll. -/
theorem Waiter.Looping.round {s : Waiter Bool} (h : s.Looping) :
    ∃ s', (submitWaiter loneCaller).runFrom s (List.replicate 8 (.step true)) = some s' ∧ s'.Looping ∧
      s'.queue.length = s.queue.length + 1 := by
  obtain ⟨cpu', hblock, hlone⟩ := h.cpu.blockedResched
  refine ⟨{ s with
    cpu := cpu', calls := s.calls + 1, woke := true, interruptWaker := some (s.calls + 1),
    queue := s.queue ++ [⟨s.calls + 1, submitWaitMask⟩] }, ?_, ⟨hlone, h.pc, h.done, h.interrupted⟩, by simp⟩
  simp [List.replicate, Machine.runFrom, submitWaiter, step, loneCaller, h.pc, h.done, h.interrupted, h.cpu.current,
    hblock, hlone.current]

/-- Before `complete` the queue can get as long as one likes. -/
theorem wait_queue_unbounded (n : Nat) :
    ∃ acts s, (submitWaiter loneCaller).run acts = some s ∧ s.done = false ∧ s.queue.length = n := by
  have hrounds : ∃ acts s, (submitWaiter loneCaller).run acts = some s ∧ s.Looping ∧ s.queue.length = n := by
    induction n with
    | zero => exact ⟨[], _, rfl, ⟨⟨rfl, rfl, rfl, rfl⟩, rfl, rfl, rfl⟩, rfl⟩
    | succ n ih =>
        obtain ⟨acts, s, hrun, hloop, hlen⟩ := ih
        obtain ⟨s', hround, hloop', hlen'⟩ := hloop.round
        exact ⟨_, s', Machine.run_append hrun hround, hloop', by rw [hlen', hlen]⟩
  obtain ⟨acts, s, hrun, hloop, hlen⟩ := hrounds
  exact ⟨acts, s, hrun, hloop.done, hlen⟩

end Rknpu.Starry
