import Rknpu.Service.Clients
import Rknpu.Service.Lemmas.Terminal

/-!
# The calls and their submits

While a call waits, its submit is there with the call's waiter, and no other call has the same submit. A submit that
no call waits for any more was aborted. A waiter is completed only after its submit has become complete.
-/

namespace Rknpu.Service

open Queue

/-! ## The scheduler under the calls -/

namespace Clients

variable {c c' : Clients}

theorem step_sys {a : ClientAct} (h : c.step a = some c') : c'.sys = c.sys ∨ ∃ act, c.sys.step act = some c'.sys := by
  cases step_cases h with
  | refuse => exact .inl rfl
  | enter _ _ hs => exact .inr ⟨_, hs⟩
  | block => exact .inl rfl
  | unregistered => exact .inl rfl
  | interrupt => exact .inl rfl
  | wakeUp => exact .inl rfl
  | abort _ hs => exact .inr ⟨_, hs⟩
  | take _ _ hs => exact .inr ⟨_, hs⟩
  | missing _ _ hs => exact .inr ⟨_, hs⟩
  | copyBack => exact .inl rfl
  | worker _ _ hs => exact .inr ⟨_, hs⟩
  | signal => exact .inl rfl

theorem reaches_sys {acts : List ClientAct} (hrun : clients.runFrom c acts = some c') :
    (scheduler Nat).Reaches c.sys c'.sys := by
  refine Machine.runFrom_induction (M := clients) (P := fun _ c' => (scheduler Nat).Reaches c.sys c'.sys)
    (Machine.Reaches.refl _) ?_ hrun
  intro _ c₁ a c₂ _ h hs
  rcases step_sys hs with he | ⟨act, hact⟩
  · rw [he]
    exact h
  · exact h.step hact

theorem idsFit_of_step {a : ClientAct} (h : c.step a = some c') (hfit : c'.sys.IdsFit) : c.sys.IdsFit := by
  rcases step_sys h with he | ⟨act, hact⟩
  · rwa [he] at hfit
  · exact hfit.of_step hact

end Clients

/-! ## What holds of a call -/

/-- The submit that the call is waiting for. -/
def CallPc.owned : CallPc → Option RknpuQueueTaskId
  | .enqueued taskId | .blocked taskId _ | .aborting taskId _ | .woken taskId => some taskId
  | .copying _ _ | .returned _ _ => none

/-- The submit that the call has enqueued. -/
def CallPc.taskId : CallPc → Option RknpuQueueTaskId
  | .enqueued taskId | .blocked taskId _ | .aborting taskId _ | .woken taskId | .copying taskId _ => some taskId
  | .returned taskId _ => taskId

/-- The submit of a waiting call is there, with its waiter, and is complete when the wait is over. -/
def CallPc.Sound (s : NpuSchedulerState Nat) : CallPc → Prop
  | .enqueued taskId | .aborting taskId _ => s.Known taskId ∧ s.waiters[taskId]? ≠ none
  | .blocked taskId waiter => s.Known taskId ∧ s.waiters[taskId]? = some waiter
  | .woken taskId => s.complete[taskId]? ≠ none ∧ s.waiters[taskId]? ≠ none
  | .copying _ _ | .returned _ _ => True

theorem CallPc.Sound.owned {s : NpuSchedulerState Nat} {pc : CallPc} (h : pc.Sound s) {taskId : RknpuQueueTaskId}
    (howned : pc.owned = some taskId) : s.Known taskId ∧ s.waiters[taskId]? ≠ none := by
  cases pc with
  | enqueued => cases howned; exact h
  | blocked =>
      cases howned
      exact ⟨h.1, by rw [h.2]; exact nofun⟩
  | aborting => cases howned; exact h
  | woken => cases howned; exact ⟨.inr h.1, h.2⟩
  | copying => cases howned
  | returned => cases howned

theorem Sys.Inv.enqueued_of_known {W : Type} {y : Sys W} (h : y.Inv) {taskId : RknpuQueueTaskId}
    (hknown : y.state.Known taskId) : taskId ∈ enqueuedIds y.hist := by
  by_contra hno
  have hagree := (h.unknown taskId hno).2 (RknpuQueueTask.new taskId (RknpuQueuedSubmit.new .default []))
  exact hagree.known_iff.mp hknown rfl

/-- Steps that do not concern the submit keep its call sound. -/
theorem CallPc.Sound.step {y y' : Sys Nat} {pc : CallPc} (h : pc.Sound y.state) (hinv : y.Inv) (hfit : y'.IdsFit)
    {a : Act Nat} (hs : y.step a = some y') (ha : ∀ taskId, pc.owned = some taskId → ¬ y.Concerns taskId a) :
    pc.Sound y'.state := by
  cases howned : pc.owned with
  | none => cases pc <;> first | exact trivial | cases howned
  | some taskId =>
      obtain ⟨hknown, hwaiter⟩ := h.owned howned
      have hwaiters := hinv.waiters_step hs (ha taskId howned)
      obtain ⟨hk, hc⟩ := hinv.stays_step hfit hs (ha taskId howned) (hinv.enqueued_of_known hknown) hwaiter
      cases pc with
      | enqueued => cases howned; exact ⟨hk hknown, hwaiters ▸ hwaiter⟩
      | blocked => cases howned; exact ⟨hk hknown, hwaiters.trans h.2⟩
      | aborting => cases howned; exact ⟨hk hknown, hwaiters ▸ hwaiter⟩
      | woken => cases howned; exact ⟨hc h.1, hwaiters ▸ hwaiter⟩
      | copying => cases howned
      | returned => cases howned

/-! ## The invariant -/

/-- The thread's call waits for the submit. -/
def Clients.Owns (c : Clients) (thread : Nat) (taskId : RknpuQueueTaskId) : Prop :=
  ∃ call, c.calls[thread]? = some call ∧ call.pc.owned = some taskId

structure Clients.Inv (c : Clients) : Prop where
  sound : ∀ (thread : Nat) (call : Call), c.calls[thread]? = some call → call.pc.Sound c.sys.state
  unique : ∀ (thread thread' : Nat) (taskId : RknpuQueueTaskId),
    c.Owns thread taskId → c.Owns thread' taskId → thread = thread'
  /-- A submit that nobody waits for was aborted. -/
  owner : ∀ taskId : RknpuQueueTaskId, c.sys.state.Known taskId →
    (∃ thread, c.Owns thread taskId) ∨ .submit taskId .aborted ∈ c.sys.hist
  registered : ∀ taskId : RknpuQueueTaskId, c.sys.state.waiters[taskId]? ≠ none → ∃ thread, c.Owns thread taskId
  fresh : ∀ (taskId : RknpuQueueTaskId) (waiter : Nat),
    c.sys.state.waiters[taskId]? = some waiter → waiter < c.nextWaiter
  distinct : ∀ (taskId taskId' : RknpuQueueTaskId) (waiter : Nat),
    c.sys.state.waiters[taskId]? = some waiter → c.sys.state.waiters[taskId']? = some waiter → taskId = taskId'
  /-- A registered waiter is told only when its submit is complete. -/
  signalled : ∀ waiter : Nat, waiter ∈ c.signals ∨ waiter ∈ c.completed → waiter < c.nextWaiter ∧
    ∀ taskId : RknpuQueueTaskId, c.sys.state.waiters[taskId]? = some waiter → c.sys.state.complete[taskId]? ≠ none

namespace Clients.Inv

variable {c c' : Clients} {thread : Nat} {call : Call} {taskId : RknpuQueueTaskId}

theorem init : Clients.init.Inv where
  sound := fun _ _ h => by simp [Clients.init] at h
  unique := fun _ _ _ ⟨_, h, _⟩ => by simp [Clients.init] at h
  owner := fun _ h => by simp [Clients.init, Sys.init, NpuSchedulerState.new, NpuSchedulerState.Known] at h
  registered := fun _ h => by simp [Clients.init, Sys.init, NpuSchedulerState.new] at h
  fresh := fun _ _ h => by simp [Clients.init, Sys.init, NpuSchedulerState.new] at h
  distinct := fun _ _ _ h => by simp [Clients.init, Sys.init, NpuSchedulerState.new] at h
  signalled := fun _ h => by simp [Clients.init] at h

/-- The calls after one of them has moved. -/
theorem calls_insert {thread' : Nat} {call' : Call} (h : (c.calls.insert thread call)[thread']? = some call') :
    (thread' = thread ∧ call' = call) ∨ (thread' ≠ thread ∧ c.calls[thread']? = some call') := by
  by_cases ht : thread = thread'
  · subst ht
    rw [Std.ExtTreeMap.getElem?_insert_self] at h
    exact .inl ⟨rfl, (Option.some.inj h).symm⟩
  · rw [Std.ExtTreeMap.getElem?_insert_of_ne ht] at h
    exact .inr ⟨Ne.symm ht, h⟩

/-- A call that goes on waiting for its submit, or for none as before. -/
theorem of_call (h : c.Inv) (call : Call) {pc : CallPc} (howned : ∀ taskId, pc.owned = some taskId ↔ c.Owns thread taskId)
    (hsound : pc.Sound c.sys.state) : (c.setPc thread call pc).Inv := by
  have howns : ∀ thread' taskId, (c.setPc thread call pc).Owns thread' taskId ↔ c.Owns thread' taskId := by
    intro thread' taskId
    by_cases ht : thread = thread'
    · subst ht
      rw [← howned]
      exact ⟨fun ⟨_, hcall, ho⟩ => by cases Std.ExtTreeMap.getElem?_insert_self.symm.trans hcall; exact ho,
        fun ho => ⟨_, Std.ExtTreeMap.getElem?_insert_self, ho⟩⟩
    · exact exists_congr fun _ => and_congr_left' (by rw [Clients.setPc, Std.ExtTreeMap.getElem?_insert_of_ne ht])
  refine ⟨fun thread' call' hcall => ?_, ?_, ?_, ?_, h.fresh, h.distinct, h.signalled⟩
  · rcases calls_insert hcall with ⟨rfl, rfl⟩ | ⟨_, hcall⟩
    · exact hsound
    · exact h.sound thread' call' hcall
  · intro t t' id ho ho'
    exact h.unique t t' id ((howns t id).mp ho) ((howns t' id).mp ho')
  · intro id hk
    exact (h.owner id hk).imp_left fun ⟨t, ho⟩ => ⟨t, (howns t id).mpr ho⟩
  · intro id hw
    obtain ⟨t, ho⟩ := h.registered id hw
    exact ⟨t, (howns t id).mpr ho⟩

theorem owns_iff (hcall : c.calls[thread]? = some call) : c.Owns thread taskId ↔ call.pc.owned = some taskId :=
  ⟨fun ⟨_, hcall', ho⟩ => by cases hcall.symm.trans hcall'; exact ho, fun ho => ⟨_, hcall, ho⟩⟩

/-- A waiter that was told stays told while a step leaves its submit alone. -/
theorem signalled_step (h : c.Inv) (hinv : c.sys.Inv) {sys : Sys Nat} (hfit : sys.IdsFit) {a : Act Nat}
    (hs : c.sys.step a = some sys) (ha : ¬ c.sys.Concerns taskId a) {waiter : Nat}
    (hwaiter : sys.state.waiters[taskId]? = some waiter) (htold : waiter ∈ c.signals ∨ waiter ∈ c.completed) :
    sys.state.complete[taskId]? ≠ none := by
  rw [hinv.waiters_step hs ha] at hwaiter
  have hc := (h.signalled waiter htold).2 taskId hwaiter
  exact (hinv.stays_step hfit hs ha (hinv.enqueued_of_known (.inr hc)) (by rw [hwaiter]; exact nofun)).2 hc

theorem hist_mono {sys : Sys Nat} {a : Act Nat} (hs : c.sys.step a = some sys) {e : Event} (he : e ∈ c.sys.hist) :
    e ∈ sys.hist := (Sys.step_hist hs).subset he

/-- The waiters that a wake-up is about to tell. -/
theorem mem_wakeTerminalTasks {s : NpuSchedulerState Nat} {prepareError : Bool} {taskIds : List RknpuQueueTaskId}
    {waiter : Nat} (h : waiter ∈ (s.wakeTerminalTasks prepareError taskIds).1) :
    ∃ taskId ∈ taskIds, s.waiters[taskId]? = some waiter := by
  induction taskIds generalizing s with
  | nil => cases h
  | cons taskId taskIds ih =>
      have hone : (s.wakeTask prepareError taskId).1 = s.waiters[taskId]? := by
        unfold NpuSchedulerState.wakeTask
        cases hw : s.waiters[taskId]? <;> cases prepareError <;> simp [hw]
      rw [NpuSchedulerState.wakeTerminalTasks, List.mem_append, Option.mem_toList, hone] at h
      rcases h with h | h
      · exact ⟨taskId, List.mem_cons_self .., h⟩
      · obtain ⟨id, hid, hw⟩ := ih h
        rw [s.waiters_wakeTask] at hw
        exact ⟨id, List.mem_cons_of_mem _ hid, hw⟩

/-- A section of the worker concerns no call. -/
theorem of_worker (h : c.Inv) (hinv : c.sys.Inv) (hatt : c.sys.Attended) {sys : Sys Nat} (hfit : sys.IdsFit)
    {a : Act Nat} (hworker : a.isWorker = true) (hs : c.sys.step a = some sys) :
    { c with sys, signals := c.wakes a }.Inv := by
  have ha : ∀ id, ¬ c.sys.Concerns id a := by
    intro id hconcerns
    cases a <;> first | exact hconcerns | cases hworker
  have hwaiters := fun id => hinv.waiters_step hs (ha id)
  refine ⟨fun thread call hcall => ?_, h.unique, fun id hk => ?_, fun id hw => ?_, fun id waiter hw => ?_,
    fun id id' waiter hw hw' => ?_, fun waiter htold => ?_⟩
  · exact (h.sound thread call hcall).step hinv hfit hs fun id _ => ha id
  · have hk := (hinv.known_of_step hs hk).resolve_right (ha id)
    exact (h.owner id hk).imp_right (hist_mono hs)
  · exact h.registered id (hwaiters id ▸ hw)
  · exact h.fresh id waiter ((hwaiters id).symm.trans hw)
  · exact h.distinct id id' waiter ((hwaiters id).symm.trans hw) ((hwaiters id').symm.trans hw')
  · rcases htold with htold | htold
    · -- Only a wake-up leaves waiters to tell, and their submits are on its list.
      cases a with
      | wake deviceError =>
          simp only [Clients.wakes] at htold
          split at htold
          · rename_i taskIds prepareRead hphase
            obtain ⟨id, hid, hw⟩ := mem_wakeTerminalTasks htold
            refine ⟨h.fresh id waiter hw, fun id' hw' => ?_⟩
            rw [hwaiters] at hw'
            obtain rfl := h.distinct id id' waiter hw hw'
            have hne : c.sys.state.waiters[id]? ≠ none := by rw [hw]; exact nofun
            obtain ⟨hmem, hc⟩ := hatt.listed id (by rw [hphase]; exact hid)
            exact (hinv.stays_step hfit hs (ha id) hmem hne).2 (hc.resolve_right hne)
          · cases htold
      | _ => cases htold
    · exact ⟨(h.signalled waiter (.inr htold)).1,
        fun id hw => h.signalled_step hinv hfit hs (ha id) hw (.inr htold)⟩

/-- The section with which a call gives its submit up. -/
theorem of_release (h : c.Inv) (hinv : c.sys.Inv) {sys : Sys Nat} (hfit : sys.IdsFit) {a : Act Nat}
    (hs : c.sys.step a = some sys) (ha : ∀ id, c.sys.Concerns id a ↔ taskId = id)
    (howns : c.Owns thread taskId) {pc : CallPc} (hpc : pc.owned = none)
    (hwaiter : sys.state.waiters[taskId]? = none)
    (hgone : sys.state.Known taskId → .submit taskId .aborted ∈ sys.hist) :
    ({ c with sys }.setPc thread call pc).Inv := by
  have hother : ∀ thread' id, ({ c with sys }.setPc thread call pc).Owns thread' id ↔
      thread' ≠ thread ∧ c.Owns thread' id := by
    intro thread' id
    constructor
    · rintro ⟨call', hcall', ho⟩
      rcases calls_insert hcall' with ⟨rfl, rfl⟩ | ⟨hne, hcall'⟩
      · cases hpc.symm.trans ho
      · exact ⟨hne, call', hcall', ho⟩
    · rintro ⟨hne, call', hcall', ho⟩
      exact ⟨call', (Std.ExtTreeMap.getElem?_insert_of_ne (Ne.symm hne)).trans hcall', ho⟩
  have hkeep : ∀ {id}, id ≠ taskId → ¬ c.sys.Concerns id a := fun hid hc => hid ((ha _).mp hc).symm
  have hwaiters : ∀ {id waiter}, sys.state.waiters[id]? = some waiter →
      id ≠ taskId ∧ c.sys.state.waiters[id]? = some waiter := by
    intro id waiter hw
    have hid : id ≠ taskId := by
      rintro rfl
      cases hwaiter.symm.trans hw
    exact ⟨hid, (hinv.waiters_step hs (hkeep hid)).symm.trans hw⟩
  have howner : ∀ {id thread'}, id ≠ taskId → c.Owns thread' id → thread' ≠ thread := by
    rintro id thread' hid ⟨call', hcall', ho⟩ rfl
    obtain ⟨call, hcall, ho'⟩ := howns
    cases hcall'.symm.trans hcall
    exact hid (Option.some.inj (ho.symm.trans ho'))
  refine ⟨fun thread' call' hcall' => ?_, fun t t' id ho ho' => ?_, fun id hk => ?_, fun id hw => ?_,
    fun id waiter hw => ?_, fun id id' waiter hw hw' => ?_, fun waiter htold => ?_⟩
  · rcases calls_insert hcall' with ⟨rfl, rfl⟩ | ⟨hne, hcall'⟩
    · cases pc <;> first | exact trivial | cases hpc
    · refine (h.sound thread' call' hcall').step hinv hfit hs fun id ho => hkeep ?_
      rintro rfl
      exact hne (h.unique thread' thread id ⟨call', hcall', ho⟩ howns)
  · exact h.unique t t' id ((hother t id).mp ho).2 ((hother t' id).mp ho').2
  · by_cases hid : id = taskId
    · subst hid
      exact .inr (hgone hk)
    · have hk := (hinv.known_of_step hs hk).resolve_right (hkeep hid)
      exact (h.owner id hk).imp (fun ⟨t, ho⟩ => ⟨t, (hother t id).mpr ⟨howner hid ho, ho⟩⟩) (hist_mono hs)
  · obtain ⟨waiter, hw⟩ := Option.ne_none_iff_exists'.mp hw
    obtain ⟨hid, hw⟩ := hwaiters hw
    obtain ⟨t, ho⟩ := h.registered id (by rw [hw]; exact nofun)
    exact ⟨t, (hother t id).mpr ⟨howner hid ho, ho⟩⟩
  · exact h.fresh id waiter (hwaiters hw).2
  · exact h.distinct id id' waiter (hwaiters hw).2 (hwaiters hw').2
  · refine ⟨(h.signalled waiter htold).1, fun id hw => ?_⟩
    exact h.signalled_step hinv hfit hs (hkeep (hwaiters hw).1) hw htold

theorem not_owns_of_outside (hout : c.outside thread = true) : ¬ c.Owns thread taskId := by
  rintro ⟨⟨submit, tasks, pc⟩, hcall, ho⟩
  simp only [Clients.outside, hcall] at hout
  cases pc <;> first | exact absurd hout Bool.false_ne_true | cases ho

/-- A new call waits for a submit that was unknown. -/
theorem of_enter (h : c.Inv) (hinv : c.sys.Inv) {submit : RknpuSubmit} {tasks : List RknpuTask} {t0Ns timeNs : UInt64}
    {sys : Sys Nat} (hfit : sys.IdsFit) (hout : c.outside thread = true)
    (hs : c.sys.step (.enqueue submit tasks t0Ns c.nextWaiter timeNs) = some sys) :
    (c.register thread submit tasks sys).Inv := by
  have hfresh : c.sys.nextQueueTaskId ∉ enqueuedIds c.sys.hist := by
    cases hs
    exact hinv.fresh hfit.of_enqueue
  have hnew : sys.state.waiters[c.sys.nextQueueTaskId]? = some c.nextWaiter := by
    cases hs
    exact Std.ExtTreeMap.getElem?_insert_self
  have hlive : sys.state.tasks[c.sys.nextQueueTaskId]? ≠ none := by
    cases hs
    simp [Sys.enqueue, NpuSchedulerState.enqueueSubmit, NpuSchedulerState.enqueueTask]
  have hkeep : ∀ {id}, c.sys.state.Known id → c.sys.nextQueueTaskId ≠ id := by
    rintro id hk rfl
    exact hfresh (hinv.enqueued_of_known hk)
  have hold : ∀ {id waiter}, sys.state.waiters[id]? = some waiter →
      (id = c.sys.nextQueueTaskId ∧ waiter = c.nextWaiter) ∨
        (c.sys.nextQueueTaskId ≠ id ∧ c.sys.state.waiters[id]? = some waiter) := by
    intro id waiter hw
    by_cases hid : c.sys.nextQueueTaskId = id
    · subst hid
      exact .inl ⟨rfl, Option.some.inj (hw.symm.trans hnew)⟩
    · exact .inr ⟨hid, (hinv.waiters_step hs hid).symm.trans hw⟩
  have howns : ∀ {t id}, c.Owns t id → (c.register thread submit tasks sys).Owns t id := by
    rintro t id ⟨call', hcall', ho⟩
    have hne : thread ≠ t := by
      rintro rfl
      exact not_owns_of_outside hout ⟨call', hcall', ho⟩
    exact ⟨call', (Std.ExtTreeMap.getElem?_insert_of_ne hne).trans hcall', ho⟩
  have hcases : ∀ {t id}, (c.register thread submit tasks sys).Owns t id → (t = thread ∧ id = c.sys.nextQueueTaskId) ∨ c.Owns t id := by
    rintro t id ⟨call', hcall', ho⟩
    rcases calls_insert hcall' with ⟨rfl, rfl⟩ | ⟨_, hcall'⟩
    · exact .inl ⟨rfl, (Option.some.inj ho).symm⟩
    · exact .inr ⟨call', hcall', ho⟩
  have hunknown : ∀ {t}, ¬ c.Owns t c.sys.nextQueueTaskId := by
    rintro t ⟨call', hcall', ho⟩
    exact hkeep ((h.sound t call' hcall').owned ho).1 rfl
  refine ⟨fun thread' call' hcall' => ?_, fun t t' id ho ho' => ?_, fun id hk => ?_, fun id hw => ?_,
    fun id waiter hw => ?_, fun id id' waiter hw hw' => ?_, fun waiter htold => ?_⟩
  · rcases calls_insert hcall' with ⟨rfl, rfl⟩ | ⟨_, hcall'⟩
    · exact ⟨.inl hlive, by rw [Clients.register, hnew]; exact Option.some_ne_none _⟩
    · have hsound := h.sound thread' call' hcall'
      exact hsound.step hinv hfit hs fun id ho => hkeep (hsound.owned ho).1
  · rcases hcases ho with ⟨rfl, rfl⟩ | ho
    · rcases hcases ho' with ⟨rfl, _⟩ | ho'
      · rfl
      · exact (hunknown ho').elim
    · rcases hcases ho' with ⟨_, rfl⟩ | ho'
      · exact (hunknown ho).elim
      · exact h.unique t t' id ho ho'
  · rcases hinv.known_of_step hs hk with hk | hid
    · exact (h.owner id hk).imp (Exists.imp fun _ => howns) (hist_mono hs)
    · cases hid
      exact .inl ⟨thread, _, Std.ExtTreeMap.getElem?_insert_self, rfl⟩
  · obtain ⟨waiter, hw⟩ := Option.ne_none_iff_exists'.mp hw
    rcases hold hw with ⟨rfl, _⟩ | ⟨_, hw⟩
    · exact ⟨thread, _, Std.ExtTreeMap.getElem?_insert_self, rfl⟩
    · obtain ⟨t, ho⟩ := h.registered id (by rw [hw]; exact Option.some_ne_none _)
      exact ⟨t, howns ho⟩
  · rcases hold hw with ⟨_, rfl⟩ | ⟨_, hw⟩
    · exact Nat.lt_succ_self _
    · exact (h.fresh id waiter hw).trans (Nat.lt_succ_self _)
  · rcases hold hw with ⟨rfl, rfl⟩ | ⟨_, hw⟩
    · rcases hold hw' with ⟨rfl, _⟩ | ⟨_, hw'⟩
      · rfl
      · exact (Nat.lt_irrefl _ (h.fresh id' _ hw')).elim
    · rcases hold hw' with ⟨_, rfl⟩ | ⟨_, hw'⟩
      · exact (Nat.lt_irrefl _ (h.fresh id _ hw)).elim
      · exact h.distinct id id' waiter hw hw'
  · have hlt := (h.signalled waiter htold).1
    refine ⟨hlt.trans (Nat.lt_succ_self _), fun id hw => ?_⟩
    rcases hold hw with ⟨_, rfl⟩ | ⟨hid, _⟩
    · exact (Nat.lt_irrefl _ hlt).elim
    · exact h.signalled_step hinv hfit hs hid hw htold

theorem step (h : c.Inv) (hinv : c.sys.Inv) (hatt : c.sys.Attended) {a : ClientAct} (hfit : c'.sys.IdsFit)
    (hs : c.step a = some c') : c'.Inv := by
  have hgo : ∀ {thread call pc}, c.calls[thread]? = some call → pc.owned = call.pc.owned → pc.Sound c.sys.state →
      (c.setPc thread call pc).Inv :=
    fun hcall hpc hsound => h.of_call _ (fun id => by rw [owns_iff hcall, hpc]) hsound
  cases Clients.step_cases hs with
  | refuse err hout =>
      refine h.of_call ⟨.default, [], .returned none (.refused err)⟩ (fun id => ?_) trivial
      exact iff_of_false nofun (not_owns_of_outside hout)
  | enter hout _ hsys => exact h.of_enter hinv hfit hout hsys
  | block hcall hwaiter => exact hgo hcall rfl ⟨(h.sound _ _ hcall).1, hwaiter⟩
  | unregistered hcall hwaiter => exact ((h.sound _ _ hcall).2 hwaiter).elim
  | interrupt err hcall => exact hgo hcall rfl ((h.sound _ _ hcall).owned rfl)
  | wakeUp hcall htold =>
      have hwaiter := (h.sound _ _ hcall).2
      exact hgo hcall rfl ⟨(h.signalled _ (.inr htold)).2 _ hwaiter, by rw [hwaiter]; exact nofun⟩
  | @abort _ _ _ taskId _ _ hcall hsys =>
      cases hsys
      have hwaiter : (c.sys.abort taskId).state.waiters[taskId]? = none := by
        rw [Sys.abort, NpuSchedulerState.waiters_abortWait, Std.ExtTreeMap.getElem?_erase_self]
      exact h.of_release hinv hfit (a := .abort taskId) rfl (fun _ => Iff.rfl) ⟨_, hcall, rfl⟩ rfl hwaiter
        fun _ => Sys.mem_hist_abort (h.sound _ _ hcall).1
  | @take _ _ _ taskId _ _ hcall hc hsys =>
      cases hsys
      have hwaiter : (c.sys.take taskId).state.waiters[taskId]? = none := by
        rw [Sys.state_take hc, Std.ExtTreeMap.getElem?_erase_self]
      exact h.of_release hinv hfit (a := .take taskId) rfl (fun _ => Iff.rfl) ⟨_, hcall, rfl⟩ rfl hwaiter
        fun hk => (hinv.not_known_take hc hk).elim
  | missing hcall hc hsys => exact ((h.sound _ _ hcall).1 hc).elim
  | copyBack tasksCopy headerCopy hcall => exact hgo hcall rfl trivial
  | worker hworker _ hsys => exact h.of_worker hinv hatt hfit hworker hsys
  | signal hsignals =>
      refine ⟨h.sound, h.unique, h.owner, h.registered, h.fresh, h.distinct, fun waiter htold => h.signalled waiter ?_⟩
      rw [hsignals, List.mem_cons]
      rcases htold with htold | htold
      · exact .inl (.inr htold)
      · exact (List.mem_cons.mp htold).imp_left Or.inl

end Clients.Inv

theorem Clients.sys_of_run {acts : List ClientAct} {c : Clients} (hrun : clients.run acts = some c)
    (hfit : c.sys.IdsFit) : c.sys.Inv ∧ c.sys.Attended := by
  obtain ⟨sysActs, hsys⟩ := Clients.reaches_sys (c := .init) hrun
  exact ⟨Sys.inv_of_run hsys hfit, Sys.attended_of_run hsys hfit⟩

/-- Every run that hands out no id twice keeps the invariant. -/
theorem Clients.inv_of_run {acts : List ClientAct} {c : Clients} (hrun : clients.run acts = some c)
    (hfit : c.sys.IdsFit) : c.Inv := by
  refine Machine.run_induction (M := clients) (P := fun _ c => c.sys.IdsFit → c.Inv) (fun _ => .init) ?_ hrun hfit
  intro _ c a c' hrun ih hs hfit'
  have hfit := Clients.idsFit_of_step hs hfit'
  obtain ⟨hinv, hatt⟩ := Clients.sys_of_run hrun hfit
  exact (ih hfit).step hinv hatt hfit' hs

/-! ## What a call has behind it -/

/-- The record that the call has taken. -/
def CallPc.finished : CallPc → Option (RknpuQueueTaskId × CompletedSubmit)
  | .copying taskId finished | .returned (some taskId) (.replied finished _ _) => some (taskId, finished)
  | _ => none

/-- What the history shows of a call. After the enqueue it can only end with an interrupted wait or a reply. -/
structure Call.Recorded (hist : List Event) (call : Call) : Prop where
  enqueued : ∀ taskId, call.pc.taskId = some taskId → Accepted call.submit call.tasks ∧
    ∃ t0Ns timeNs, .enqueued taskId (queuedSubmit call.submit call.tasks t0Ns) timeNs ∈ hist
  taken : ∀ taskId finished, call.pc.finished = some (taskId, finished) →
    ∃ t, .submit taskId (.taken t) ∈ hist ∧ finished = ⟨t.buildSubmit, t.tasks, t.lastError, t.latency⟩
  ended : ∀ taskId outcome, call.pc = .returned (some taskId) outcome →
    (∃ err, outcome = .interrupted err) ∨ ∃ finished tasksCopy headerCopy, outcome = .replied finished tasksCopy headerCopy

theorem Call.Recorded.mono {hist hist' : List Event} {call : Call} (h : call.Recorded hist) (hsub : hist ⊆ hist') :
    call.Recorded hist' := by
  refine ⟨fun id hid => ?_, fun id finished hf => ?_, h.ended⟩
  · obtain ⟨haccepted, t0Ns, timeNs, he⟩ := h.enqueued id hid
    exact ⟨haccepted, t0Ns, timeNs, hsub he⟩
  · obtain ⟨t, ht, he⟩ := h.taken id finished hf
    exact ⟨t, hsub ht, he⟩

/-- A call that moves on with the same submit. -/
theorem Call.Recorded.move {hist : List Event} {call : Call} (h : call.Recorded hist) {pc : CallPc}
    (hid : pc.taskId = call.pc.taskId) (hfinished : pc.finished = none ∨ pc.finished = call.pc.finished)
    (hended : ∀ taskId outcome, pc = .returned (some taskId) outcome → (∃ err, outcome = .interrupted err) ∨
      ∃ finished tasksCopy headerCopy, outcome = .replied finished tasksCopy headerCopy) :
    ({ call with pc } : Call).Recorded hist := by
  refine ⟨fun id hid' => h.enqueued id (hid.symm.trans hid'), fun id finished hf => ?_, hended⟩
  rcases hfinished with hnone | hsame
  · cases hnone.symm.trans hf
  · exact h.taken id finished (hsame.symm.trans hf)

theorem Clients.recorded_step {c c' : Clients} {a : ClientAct} (h : c.Inv)
    (hrec : ∀ (thread : Nat) (call : Call), c.calls[thread]? = some call → call.Recorded c.sys.hist)
    (hs : c.step a = some c') (thread : Nat) (call : Call) (hcall : c'.calls[thread]? = some call) :
    call.Recorded c'.sys.hist := by
  have hmono : c.sys.hist ⊆ c'.sys.hist := by
    rcases step_sys hs with he | ⟨act, hact⟩
    · rw [he]
      exact List.Subset.refl _
    · exact (Sys.step_hist hact).subset
  -- The other calls stay as they are; what is left is the call that moves.
  have hone : ∀ {thread' : Nat} {call' : Call}, (c.calls.insert thread' call')[thread]? = some call →
      call'.Recorded c'.sys.hist → call.Recorded c'.sys.hist := by
    intro thread' call' hcall hrec'
    rcases Clients.Inv.calls_insert hcall with ⟨_, rfl⟩ | ⟨_, hcall⟩
    · exact hrec'
    · exact (hrec thread call hcall).mono hmono
  have hmoved : ∀ {thread' : Nat} {call' : Call}, c.calls[thread']? = some call' → call'.Recorded c'.sys.hist :=
    fun hc => (hrec _ _ hc).mono hmono
  cases Clients.step_cases hs with
  | refuse err _ => exact hone hcall ⟨(fun _ h => nomatch h), (fun _ _ h => nomatch h), fun _ _ h => nomatch h⟩
  | enter _ haccepted hsys =>
      refine hone hcall ⟨fun id hid => ⟨haccepted, ?_⟩, (fun _ _ h => nomatch h), fun _ _ h => nomatch h⟩
      cases hid
      cases hsys
      exact ⟨_, _, List.mem_append_right _ (List.mem_singleton_self _)⟩
  | block hc _ => exact hone hcall ((hmoved hc).move rfl (.inl rfl) fun _ _ h => nomatch h)
  | unregistered hc hwaiter => exact ((h.sound _ _ hc).2 hwaiter).elim
  | interrupt err hc => exact hone hcall ((hmoved hc).move rfl (.inl rfl) fun _ _ h => nomatch h)
  | wakeUp hc _ => exact hone hcall ((hmoved hc).move rfl (.inl rfl) fun _ _ h => nomatch h)
  | abort hc _ =>
      refine hone hcall ((hmoved hc).move rfl (.inl rfl) fun _ _ he => ?_)
      cases he
      exact .inl ⟨_, rfl⟩
  | @take _ _ _ taskId t _ hc hcomplete hsys =>
      cases hsys
      refine hone hcall ⟨(hmoved hc).enqueued, fun id finished hf => ⟨t, ?_, ?_⟩, fun _ _ h => nomatch h⟩
      · cases hf
        refine List.mem_append_right _ ?_
        rw [hcomplete]
        exact List.mem_singleton_self _
      · cases hf
        rfl
  | missing hc hnone _ => exact ((h.sound _ _ hc).1 hnone).elim
  | copyBack tasksCopy headerCopy hc =>
      refine hone hcall ((hmoved hc).move rfl (.inr rfl) fun _ _ he => ?_)
      cases he
      exact .inr ⟨_, _, _, rfl⟩
  | worker _ _ _ => exact hmoved hcall
  | signal _ => exact hmoved hcall

theorem Clients.recorded_of_run {acts : List ClientAct} {c : Clients} (hrun : clients.run acts = some c)
    (hfit : c.sys.IdsFit) {thread : Nat} {call : Call} (hcall : c.calls[thread]? = some call) :
    call.Recorded c.sys.hist := by
  refine Machine.run_induction (M := clients) (P := fun _ c => c.sys.IdsFit → ∀ (thread : Nat) (call : Call),
    c.calls[thread]? = some call → call.Recorded c.sys.hist) ?_ ?_ hrun hfit thread call hcall
  · exact fun _ _ _ h => by simp [clients, Clients.init] at h
  · intro _ c a c' hrun ih hs hfit'
    have hfit := Clients.idsFit_of_step hs hfit'
    exact Clients.recorded_step (Clients.inv_of_run hrun hfit) (ih hfit) hs

end Rknpu.Service
