import Rknpu.Queue.Lemmas.Fault
import Rknpu.Service.Lemmas.Rounds
import Rknpu.Service.Theorems.Completion

/-!
# Fault semantics

What follows once an error of a submit is recorded: the error stays, nothing more is reserved, the submit ends with
its last task in flight, and its ioctl reports the error.
-/

namespace Rknpu.Service

open Queue

/-- The scheduler has this record of the submit. -/
def NpuSchedulerState.Holds {W : Type} (s : NpuSchedulerState W) (taskId : RknpuQueueTaskId) (t : RknpuQueueTask) :
    Prop := s.tasks[taskId]? = some t ∨ s.complete[taskId]? = some t

/-- After the step the submit has an error. The abort of a live submit records one even when it removes the record. -/
def Clients.Faults (c c₁ : Clients) (taskId : RknpuQueueTaskId) : Prop :=
  (∃ t, c₁.sys.state.Holds taskId t ∧ t.lastError ≠ none) ∨
    (c.sys.state.tasks[taskId]? ≠ none ∧ c₁.sys = c.sys.abort taskId)

section

variable {c c₁ c' : Clients} {taskId : RknpuQueueTaskId}

theorem Agrees.holds {W : Type} {s : NpuSchedulerState W} {ℓ : Life} (h : Agrees s taskId ℓ) {t : RknpuQueueTask}
    (ht : s.Holds taskId t) : ℓ.place ≠ .gone ∧ ℓ.task = t := by
  rcases ht with ht | ht
  · obtain ⟨hplace, htask⟩ := h.live ht
    exact ⟨by rw [hplace]; exact nofun, htask⟩
  · obtain ⟨hplace, htask⟩ := h.done ht
    exact ⟨by rw [hplace]; exact nofun, htask⟩

/-- A live submit after a step: no read can have failed for it. -/
theorem Clients.faultDrained_step {a : ClientAct} (hs : c.step a = some c₁) (hinv : c.sys.Inv) (hfit : c₁.sys.IdsFit)
    {queued : RknpuQueuedSubmit} (hfits : queued.Fits) {ℓ : Life} (hmem : taskId ∈ enqueuedIds c.sys.hist)
    (hreach : Life.Reach taskId queued (eventsOf taskId c.sys.hist) ℓ) (hagree : Agrees c.sys.state taskId ℓ)
    (hlive : ℓ.place = .live) :
    ∃ ℓ₁, Life.Reach taskId queued (eventsOf taskId c₁.sys.hist) ℓ₁ ∧ Agrees c₁.sys.state taskId ℓ₁ ∧
      ℓ₁.FaultDrained := by
  have hdrained : ℓ.FaultDrained := fun hne => (hne hlive).elim
  rcases Clients.step_sys hs with he | ⟨act, hact⟩
  · rw [he]
    exact ⟨ℓ, hreach, hagree, hdrained⟩
  · obtain ⟨evs, ℓ₁, hevents, hsteps, hagree₁, hkinds⟩ := hinv.lives_step hfit hact hmem hagree
    refine ⟨ℓ₁, by rw [hevents]; exact hreach.steps hsteps, hagree₁, hsteps.faultDrained hfits hreach hdrained ?_⟩
    intro hread
    cases hkinds _ hread with
    | harvest hharvest => cases hharvest
    | wake hwake =>
        cases hwake with
        | readFailed hc => exact (hc (hagree.complete_eq_none hlive)).elim

/-- The life of the submit at the fault. -/
structure FaultedLife (y : Sys Nat) (taskId : RknpuQueueTaskId) (ℓ : Life) : Prop where
  enqueued : taskId ∈ enqueuedIds y.hist
  agrees : Agrees y.state taskId ℓ
  error : ℓ.task.lastError ≠ none
  untaken : ∀ t, .taken t ∉ eventsOf taskId y.hist

theorem Clients.Faults.life {a : ClientAct} (h : c.Faults c₁ taskId) (hs : c.step a = some c₁) (hinv : c.sys.Inv)
    (hinv₁ : c₁.sys.Inv) (hfit : c₁.sys.IdsFit) :
    ∃ queued ℓ, queued.Fits ∧ Life.Reach taskId queued (eventsOf taskId c₁.sys.hist) ℓ ∧
      FaultedLife c₁.sys taskId ℓ ∧ (c.sys.state.tasks[taskId]? ≠ none → ℓ.FaultDrained) := by
  -- A record that is still there was not taken.
  have hheld : ∀ {queued ℓ t}, Life.Reach taskId queued (eventsOf taskId c₁.sys.hist) ℓ →
      Agrees c₁.sys.state taskId ℓ → c₁.sys.state.Holds taskId t → t.lastError ≠ none →
      FaultedLife c₁.sys taskId ℓ := by
    intro queued ℓ t hreach hagree ht herr
    obtain ⟨hplace, htask⟩ := hagree.holds ht
    refine ⟨hinv₁.enqueued_of_known (hagree.known_iff.mpr hplace), hagree, htask ▸ herr, fun _ hmem => ?_⟩
    exact hplace (hreach.gone_of_taken hmem)
  by_cases hlive : c.sys.state.tasks[taskId]? = none
  · obtain ⟨t, ht, herr⟩ := h.resolve_right fun hf => hf.1 hlive
    have hmem := hinv₁.enqueued_of_known (ht.imp (fun h => by rw [h]; exact nofun) fun h => by rw [h]; exact nofun)
    obtain ⟨queued, timeNs, he⟩ := mem_enqueuedIds.mp hmem
    obtain ⟨hfits, ℓ, hreach, hagree⟩ := hinv₁.lives taskId queued timeNs he
    exact ⟨queued, ℓ, hfits, hreach, hheld hreach hagree ht herr, fun hne => (hne hlive).elim⟩
  · obtain ⟨t₀, ht₀⟩ := Option.ne_none_iff_exists'.mp hlive
    obtain ⟨queued, timeNs, fl, he, hfits, hreach, hagree⟩ := hinv.life ht₀
    rcases h with ⟨t, ht, herr⟩ | ⟨_, habort⟩
    · obtain ⟨ℓ₁, hreach₁, hagree₁, hdrained⟩ := Clients.faultDrained_step hs hinv hfit hfits
        (mem_enqueuedIds.mpr ⟨_, _, he⟩) hreach hagree rfl
      exact ⟨queued, ℓ₁, hfits, hreach₁, hheld hreach₁ hagree₁ ht herr, fun _ => hdrained⟩
    · obtain ⟨hevents, ℓ₁, hstep, hagree₁⟩ := Sys.Inv.lives_abort hagree rfl
      rw [← habort] at hevents hagree₁
      have hreach₁ := hreach.step hstep
      rw [← hevents] at hreach₁
      refine ⟨queued, ℓ₁, hfits, hreach₁, ⟨?_, hagree₁, ?_, fun t hmem => ?_⟩, fun _ => ?_⟩
      · obtain ⟨evs, hhist⟩ := Sys.step_hist (y := c.sys) (a := .abort taskId) rfl
        rw [habort, ← hhist, enqueuedIds_append]
        exact List.mem_append_left _ (mem_enqueuedIds.mpr ⟨_, _, he⟩)
      · cases hstep
        exact nofun
      · rw [hevents] at hmem
        rcases List.mem_append.mp hmem with hmem | hmem
        · cases hreach.gone_of_taken hmem
        · cases List.mem_singleton.mp hmem
      · exact hstep.faultDrained (hreach.inv hfits) (hreach₁.inv hfits) (fun hne => (hne rfl).elim) nofun

theorem Outcome.result_of_error {finished : CompletedSubmit} (h : finished.lastError ≠ none) :
    ∃ err, (Outcome.replied finished (.ok ()) (.ok ())).result = .error (.driver err) := by
  obtain ⟨err, herr⟩ := Option.ne_none_iff_exists'.mp h
  refine ⟨err, ?_⟩
  simp only [Outcome.result, herr, bind, Except.bind, throw, throwThe, MonadExceptOf.throw]

/-- Once an error of a submit is recorded, it stays and nothing more of the submit is reserved; a submit that was live
then is live exactly as long as it has a task in flight; and unless its wait was interrupted, its ioctl copies back
`hw_elapse_time = -1` and returns the driver's error when the copies succeed. -/
theorem fault_semantics {acts later : List ClientAct} {a : ClientAct} (hrun : clients.run acts = some c)
    (hstep : c.step a = some c₁) (hlater : clients.runFrom c₁ later = some c') (hfit : c'.sys.IdsFit)
    (hfault : c.Faults c₁ taskId) :
    (∀ t, c'.sys.state.Holds taskId t → t.lastError ≠ none) ∧
    reservedSlots (eventsOf taskId c'.sys.hist) = reservedSlots (eventsOf taskId c₁.sys.hist) ∧
    (c.sys.state.tasks[taskId]? ≠ none →
      (c'.sys.state.tasks[taskId]? = none ↔ inflightOf c'.sys.state.coreBinding taskId = [])) ∧
    ∀ (thread : Nat) (submit : RknpuSubmit) (tasks : List RknpuTask) (outcome : Outcome),
      c'.calls[thread]? = some ⟨submit, tasks, .returned (some taskId) outcome⟩ →
      (∀ err, outcome ≠ .interrupted err) →
      ∃ finished tasksCopy headerCopy, outcome = .replied finished tasksCopy headerCopy ∧
        (replyHeader submit finished).hwElapseTime = -1 ∧
        (tasksCopy = .ok () → headerCopy = .ok () → ∃ err, outcome.result = .error (.driver err)) := by
  have hreach := Clients.reaches_sys hlater
  have hrun₁ := Machine.run_snoc hrun hstep
  have hrun' := Machine.run_append hrun₁ hlater
  have hfit₁ : c₁.sys.IdsFit := .of_reaches hreach hfit
  have hinv₁ := (Clients.sys_of_run hrun₁ hfit₁).1
  have hinv := (Clients.sys_of_run hrun (Clients.idsFit_of_step hstep hfit₁)).1
  obtain ⟨queued, ℓ₁, hfits, hlife, hfaulted, hdrained⟩ := hfault.life hstep hinv hinv₁ hfit₁
  obtain ⟨evs, ℓ', hevents, hsteps, hagree⟩ := hinv₁.lives_run hreach hfit hfaulted.enqueued hfaulted.agrees
  have herr := hsteps.lastError_ne_none hfaulted.error
  refine ⟨fun t ht => (hagree.holds ht).2 ▸ herr, ?_, fun hlive => ?_, fun thread submit tasks outcome hcall hwait => ?_⟩
  · rw [hevents, reservedSlots_append, hsteps.reservedSlots_eq_nil hfaulted.error, List.append_nil]
  · have hdrained' := hsteps.faultDrained hfits hlife (hdrained hlive) fun _ => hfaulted.error
    have hiff := ((hlife.steps hsteps).inv hfits).live_iff hdrained' herr
    rw [hagree.tasks, ← List.length_eq_zero_iff, hagree.inflight.length_eq, List.length_eq_zero_iff, ← hiff]
    simp
  · have hrec := Clients.recorded_of_run hrun' hfit hcall
    obtain ⟨finished, tasksCopy, headerCopy, rfl⟩ :=
      (hrec.ended taskId outcome rfl).resolve_left fun ⟨err, he⟩ => hwait err he
    obtain ⟨t, ht, rfl⟩ := hrec.taken taskId finished rfl
    have htaken : t.lastError ≠ none := by
      refine hsteps.lastError_of_taken hfaulted.error ?_
      have hmem := mem_eventsOf.mpr ht
      rw [hevents] at hmem
      exact (List.mem_append.mp hmem).resolve_left (hfaulted.untaken t)
    refine ⟨_, _, _, rfl, ?_, ?_⟩
    · simp only [replyHeader, RknpuQueueTask.buildSubmit, Option.isSome_iff_ne_none.mpr htaken, ↓reduceIte]
    · rintro rfl rfl
      exact Outcome.result_of_error htaken

end

/-! ## A fault with a second task in flight -/

/-- A call with one task on each of two lanes; both are in flight. -/
def pairInFlight : List ClientAct :=
  [.enter 0 (.ok (twoLanes 2 ⟨0, 1⟩ ⟨1, 1⟩)) (.ok [plainTask, plainTask]) 0 0, .call 0 .lookup, .worker .decide,
    .worker (.launch 0), .worker .decide, .worker (.launch 0)]

/-- Core 0 answers with an unexpected status bit. -/
def badCompletion : ClientAct := .worker (.harvest [(⟨0, 2, 0⟩, 0)])

/-- Core 1 completes, and the call gets its record. -/
def drainAndReply : List ClientAct :=
  [.worker (.wake false), .worker (.harvest [(⟨1, 1, 0⟩, 0)]), .worker (.wake false), .signal,
    .call 0 (.wait (.ok ())), .call 0 .take, .call 0 (.copyBack (.ok ()) (.ok ()))]

/-- The call has ended with a reply for this submit. -/
def Call.repliesTo (taskId : RknpuQueueTaskId) (call : Call) : Bool :=
  match call.pc with
  | .returned (some id) (.replied _ (.ok ()) (.ok ())) => id == taskId
  | _ => false

theorem Call.pc_of_repliesTo {taskId : RknpuQueueTaskId} {call : Call} (h : call.repliesTo taskId = true) :
    ∃ finished, call.pc = .returned (some taskId) (.replied finished (.ok ()) (.ok ())) := by
  unfold Call.repliesTo at h
  split at h
  · rename_i hpc
    rw [beq_iff_eq.mp h] at hpc
    exact ⟨_, hpc⟩
  · cases h

theorem fault_semantics_pair : ∃ c c₁ c' : Clients, clients.run pairInFlight = some c ∧
    c.step badCompletion = some c₁ ∧ clients.runFrom c₁ drainAndReply = some c' ∧
    (c'.sys.state.tasks[(1 : UInt64)]? = none ↔ inflightOf c'.sys.state.coreBinding 1 = []) ∧
    ∃ call finished, c'.calls[0]? = some call ∧
      call.pc = .returned (some 1) (.replied finished (.ok ()) (.ok ())) ∧
      (replyHeader call.submit finished).hwElapseTime = -1 := by
  obtain ⟨c, c₁, c', hrun, hstep, hlater, hfit, hlive, hfault, hreply⟩ := Machine.exists_step_run (M := clients)
    pairInFlight badCompletion drainAndReply
    (p := fun c c₁ c' => c'.sys.IdsFit ∧ c.sys.state.tasks[(1 : UInt64)]? ≠ none ∧
      (c₁.sys.state.tasks[(1 : UInt64)]?.any fun t => decide (t.lastError ≠ none)) = true ∧
      (c'.calls[0]?.any fun call => call.repliesTo 1) = true) (by decide +kernel)
  replace hstep : c.step badCompletion = some c₁ := hstep
  obtain ⟨t, ht, herr⟩ := (Option.any_eq_true _ _).mp hfault
  obtain ⟨⟨submit, tasks, pc⟩, hcall, hpc⟩ := (Option.any_eq_true _ _).mp hreply
  obtain ⟨finished, rfl⟩ := Call.pc_of_repliesTo hpc
  obtain ⟨_, _, hdrain, hioctl⟩ := fault_semantics hrun hstep hlater hfit (.inl ⟨t, .inl ht, of_decide_eq_true herr⟩)
  obtain ⟨_, _, _, he, helapse, _⟩ := hioctl 0 submit tasks _ hcall nofun
  cases he
  exact ⟨c, c₁, c', hrun, hstep, hlater, hdrain hlive, _, finished, hcall, rfl, helapse⟩

/-! ## After the ids have come round -/

/-- A call with one task, which is in flight. -/
def oneInFlight (thread : Nat) : List ClientAct :=
  [.enter thread (.ok (twoLanes 1 ⟨0, 1⟩ ⟨0, 0⟩)) (.ok [plainTask]) 0 0, .worker .decide, .worker (.launch 0)]

/-- A call whose submit is complete and whose wait is over. -/
def wokenCall : List ClientAct :=
  oneInFlight 0 ++ [.call 0 .lookup, .worker (.harvest [(⟨0, 1, 0⟩, 0)]), .worker (.wake false), .signal,
    .call 0 (.wait (.ok ()))]

/-- The completion of an older submit with the same id ends the submit, while its own task is still in flight. -/
theorem fault_not_drained_on_wrap : ∃ acts, ∃ c c₁ : Clients, clients.run acts = some c ∧
    c.step badCompletion = some c₁ ∧ c.sys.state.tasks[(1 : UInt64)]? ≠ none ∧ c.Faults c₁ 1 ∧
    c₁.sys.state.tasks[(1 : UInt64)]? = none ∧ inflightOf c₁.sys.state.coreBinding 1 ≠ [] := by
  obtain ⟨acts, c₀, evs, d, hrun, _, hlive, hany⟩ := Clients.exists_wrapped_run (oneInFlight 0) (oneInFlight 1) 2
    (show Accepted (twoLanes 1 ⟨0, 1⟩ ⟨0, 0⟩) [plainTask] from ⟨rfl, rfl⟩)
    (p := fun _ d => d.sys.state.tasks[(1 : UInt64)]? ≠ none ∧ ((d.step badCompletion).any fun d₁ =>
      decide ((d₁.sys.state.complete[(1 : UInt64)]?.any fun t => decide (t.lastError ≠ none)) = true ∧
        d₁.sys.state.tasks[(1 : UInt64)]? = none ∧ inflightOf d₁.sys.state.coreBinding 1 ≠ [])) = true)
    (by decide +kernel)
  obtain ⟨d₁, hstep, hd₁⟩ := (Option.any_eq_true _ _).mp hany
  obtain ⟨hfault, hgone, hbound⟩ := of_decide_eq_true hd₁
  obtain ⟨t, ht, herr⟩ := (Option.any_eq_true _ _).mp hfault
  refine ⟨acts, _, d₁.after (c₀.sys.hist ++ evs), hrun, ?_, hlive, .inl ⟨t, .inr ht, of_decide_eq_true herr⟩, hgone,
    hbound⟩
  rw [d.step_after, hstep]
  rfl

end Rknpu.Service
