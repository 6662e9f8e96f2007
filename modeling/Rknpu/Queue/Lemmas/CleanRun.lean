import Rknpu.Queue.Lemmas.Supply

/-!
# Histories without faults

When nothing interrupts a submit, no dispatch fails and every completion shows an expected interrupt bit,
the submit has no error, and the descriptor of a task that came back holds its masked status. What a
finished submit looks like is then the same in both modes.
-/

namespace Rknpu.Queue

open Finset

/-! ## Histories -/

/-- Not an interruption and not a failure; a completion of task `i` observed `s i`. -/
def SubmitEvent.Clean (s : Nat → UInt32) : SubmitEvent → Prop
  | .aborted | .failed .. | .readFailed => False
  | .harvested slot status _ => status = s slot.taskIndex.toNat
  | _ => True

instance (s : Nat → UInt32) (e : SubmitEvent) : Decidable (e.Clean s) := by
  unfold SubmitEvent.Clean
  split <;> infer_instance

def Clean (s : Nat → UInt32) (evs : List SubmitEvent) : Prop := ∀ e ∈ evs, e.Clean s

instance (s : Nat → UInt32) (evs : List SubmitEvent) : Decidable (Clean s evs) :=
  inferInstanceAs (Decidable (∀ e ∈ evs, e.Clean s))

namespace Clean

variable {s : Nat → UInt32} {evs evs' : List SubmitEvent}

theorem of_append (h : Clean s (evs ++ evs')) : Clean s evs :=
  fun e he => h e (List.mem_append_left _ he)

theorem last {e : SubmitEvent} (h : Clean s (evs ++ [e])) : e.Clean s :=
  h e (List.mem_append_right _ (List.mem_singleton_self _))

theorem aborted (h : Clean s evs) : .aborted ∉ evs := fun he => h _ he

theorem failedSlots_eq_nil (h : Clean s evs) : failedSlots evs = [] := by
  rw [failedSlots, List.filterMap_eq_nil_iff]
  intro e he
  cases e with
  | failed slot err => exact (h _ he).elim
  | _ => rfl

end Clean

/-! ## Descriptors -/

/-- No error so far, and every descriptor is the submitted one up to the status, which is known for tasks
that came back. -/
structure CleanInv (s : Nat → UInt32) (tasks : List RknpuTask) (evs : List SubmitEvent) (ℓ : Life) : Prop where
  error : ℓ.task.lastError = none
  desc : ∀ (i : Nat) (d : RknpuTask), tasks[i]? = some d →
    ∃ st, ℓ.task.tasks[i]? = some { d with intStatus := st } ∧
      (i ∈ indices (harvestedSlots evs) → i ∉ indices ℓ.inflight → st = s i &&& d.intMask)

namespace CleanInv

variable {s : Nat → UInt32} {tasks : List RknpuTask} {evs : List SubmitEvent} {t t' : RknpuQueueTask}
  {fl : List Slot} {p p' : Place} {slot : Slot}

/-- An event that leaves the descriptors, the tasks in flight and the completions alone. -/
theorem same (h : CleanInv s tasks evs ⟨t, p, fl⟩) {e : SubmitEvent} (herr : t'.lastError = t.lastError)
    (htasks : t'.tasks = t.tasks) (hharv : harvestedSlots [e] = []) :
    CleanInv s tasks (evs ++ [e]) ⟨t', p', fl⟩ := by
  refine ⟨herr.trans h.error, ?_⟩
  intro i d hd
  obtain ⟨st, hst, hval⟩ := h.desc i d hd
  refine ⟨st, by simpa only [htasks] using hst, ?_⟩
  rw [harvestedSlots_append, hharv, List.append_nil]
  exact hval

theorem reserve (h : CleanInv s tasks evs ⟨t, .live, fl⟩) :
    CleanInv s tasks (evs ++ [.reserved slot]) ⟨t.reserveSlot slot, .live, slot :: fl⟩ := by
  refine ⟨(RknpuQueueTask.lastError_reserveSlot t slot).trans h.error, ?_⟩
  intro i d hd
  obtain ⟨st, hst, hval⟩ := h.desc i d hd
  have hharv : harvestedSlots (evs ++ [.reserved slot]) = harvestedSlots evs := by
    rw [harvestedSlots_append]
    exact List.append_nil _
  simp only [RknpuQueueTask.tasks_reserveSlot]
  by_cases hi : slot.taskIndex.toNat = i
  · refine ⟨0, ?_, fun _ hno => (hno ?_).elim⟩
    · rw [← hi, List.getElem?_modify_eq, hi, hst]
      rfl
    · rw [← hi]
      exact List.mem_cons_self ..
  · refine ⟨st, by rw [List.getElem?_modify_ne _ _ hi]; exact hst, ?_⟩
    rw [hharv]
    exact fun hmem hno => hval hmem fun hin => hno (List.mem_cons_of_mem _ hin)

theorem harvest (h : CleanInv s tasks evs ⟨t, .live, fl⟩) (hmem : slot ∈ fl)
    (hlt : slot.taskIndex.toNat < t.tasks.length) (hlen : t.tasks.length = tasks.length)
    (hs : ∀ (i : Nat) (d : RknpuTask), tasks[i]? = some d → s i &&& d.intMask ≠ 0) (timeNs : UInt64) :
    CleanInv s tasks (evs ++ [.harvested slot (s slot.taskIndex.toNat) timeNs])
      ⟨t.harvestSlot slot (s slot.taskIndex.toNat) timeNs, p, fl.erase slot⟩ := by
  obtain ⟨lat, hlat⟩ := RknpuQueueTask.harvestSlot_eq t slot (s slot.taskIndex.toNat) timeNs
  -- The descriptor that the completion is checked against has the submitted mask.
  have hmask : ∀ d, tasks[slot.taskIndex.toNat]? = some d → t.tasks[slot.taskIndex.toNat].intMask = d.intMask := by
    intro d hd
    obtain ⟨st, hst, _⟩ := h.desc _ d hd
    rw [List.getElem?_eq_getElem hlt, Option.some.injEq] at hst
    rw [hst]
  have hslot : tasks[slot.taskIndex.toNat]? = some tasks[slot.taskIndex.toNat] :=
    List.getElem?_eq_getElem (hlen ▸ hlt)
  have hrec := RknpuQueueTask.recordCompletion_eq (l := slot.laneSlot) hlt (s slot.taskIndex.toNat)
  refine ⟨?_, ?_⟩
  · rw [hlat]
    refine (RknpuQueueTask.lastError_recordCompletion (l := slot.laneSlot) hlt _).trans ?_
    rw [if_neg, h.error]
    rintro ⟨_, hzero⟩
    rw [hmask _ hslot] at hzero
    exact hs _ _ hslot hzero
  · intro i d hd
    obtain ⟨st, hst, hval⟩ := h.desc i d hd
    have htasks : (t.harvestSlot slot (s slot.taskIndex.toNat) timeNs).tasks =
        t.tasks.modify slot.taskIndex.toNat
          fun desc => { desc with intStatus := s slot.taskIndex.toNat &&& desc.intMask } := by
      rw [hlat, hrec]
    simp only [htasks]
    by_cases hi : slot.taskIndex.toNat = i
    · refine ⟨s i &&& d.intMask, ?_, fun _ _ => rfl⟩
      rw [hi, List.getElem?_modify_eq, hst]
      rfl
    · refine ⟨st, by rw [List.getElem?_modify_ne _ _ hi]; exact hst, ?_⟩
      intro hharv hno
      refine hval ?_ ?_
      · rw [harvestedSlots_append, indices, List.map_append, List.mem_append] at hharv
        rcases hharv with hharv | hharv
        · exact hharv
        · exact (hi (List.mem_singleton.mp hharv).symm).elim
      · intro hin
        obtain ⟨slot', hslot', rfl⟩ := List.mem_map.mp hin
        refine hno (List.mem_map_of_mem ((List.mem_erase_of_ne ?_).mpr hslot'))
        rintro rfl
        exact hi rfl

end CleanInv

theorem Life.Reach.clean {id : RknpuQueueTaskId} {queued : RknpuQueuedSubmit} {evs : List SubmitEvent} {ℓ : Life}
    {s : Nat → UInt32} (hfits : queued.Fits) (hm : queued.submitMeta.DrainsFirst) (h : Life.Reach id queued evs ℓ)
    (hclean : Clean s evs) (hs : ∀ (i : Nat) (d : RknpuTask), queued.tasks[i]? = some d → s i &&& d.intMask ≠ 0) :
    CleanInv s queued.tasks evs ℓ := by
  induction h with
  | start timeNs =>
      refine ⟨rfl, fun i d hd => ⟨d.intStatus, hd, nofun⟩⟩
  | @step evs ℓ ℓ' e hreach hstep ih =>
      have hbefore := ih hclean.of_append
      have hinv := hreach.inv hfits
      cases hstep with
      | reserved _ _ _ _ => exact hbefore.reserve
      | launched hmem =>
          refine hbefore.same ?_ ?_ rfl
          · unfold RknpuQueueTask.markFirstDispatch
            split <;> rfl
          · unfold RknpuQueueTask.markFirstDispatch
            split <;> rfl
      | failed hmem => exact hclean.last.elim
      | @harvested t fl slot status timeNs hmem =>
          have hstatus : status = s slot.taskIndex.toNat := hclean.last
          subst hstatus
          exact hbefore.harvest hmem (hinv.lt_length_of_mem hfits rfl hmem) hinv.length hs timeNs
      | orphaned hp hmem =>
          -- Nothing is in flight once the submit has left.
          have hnil := hreach.drained hfits hm hp
          simp only at hnil
          rw [hnil] at hmem
          cases hmem
      | readFailed => exact hclean.last.elim
      | woken => exact hbefore.same rfl rfl rfl
      | dropped => exact hbefore.same rfl rfl rfl
      | abortedLive => exact hclean.last.elim
      | abortedDone => exact hclean.last.elim
      | taken => exact hbefore.same rfl rfl rfl

/-! ## Finished submits -/

/-- Every lane of a finished static submit has run through. -/
theorem StaticInv.finished {m : SubmitMeta} {evs : List SubmitEvent} {ℓ : Life} (h : StaticInv m evs ℓ)
    (hp : m.Partitions) (hne : ℓ.place ≠ .live) (he : ℓ.task.lastError = none) (hfail : failedSlots evs = [])
    (l : LaneSlot) : laneTasks l (reservedSlots evs) = (getElem m.laneRanges l l.isLt).indices ∧
      laneTasks l (harvestedSlots evs) = (getElem m.laneRanges l l.isLt).indices := by
  have hsum : ∑ l, ℓ.task.cursor l = ∑ l, m.laneCap l := by
    rw [h.done hne he, hp.completionTarget_eq, hp.sum_laneCap]
  have hcursor : ℓ.task.cursor l = m.laneCap l :=
    (sum_eq_sum_iff_of_le fun l _ => h.cursor_le l).mp hsum l (mem_univ l)
  have hidle : ℓ.task.runs l = false := by
    by_contra hr
    have := h.cursor_lt l (by simpa using hr)
    omega
  constructor
  · rw [h.reserved l, hidle, hfail, hcursor, hp.laneCap_eq]
    rfl
  · rw [h.harvested l, hcursor, hp.laneCap_eq]
    rfl

/-- A partitioned submit that left without an error has executed every task once, in either mode. -/
theorem Life.Inv.finished {id : RknpuQueueTaskId} {queued : RknpuQueuedSubmit} {evs : List SubmitEvent} {ℓ : Life}
    (h : Life.Inv id queued evs ℓ) (hp : queued.submitMeta.Partitions) (hne : ℓ.place ≠ .live)
    (he : ℓ.task.lastError = none) :
    (indices (reservedSlots evs)).Perm (List.range queued.submitMeta.taskTotal.toNat) ∧
      (indices (harvestedSlots evs)).Perm (List.range queued.submitMeta.taskTotal.toNat) := by
  have hfail : failedSlots evs = [] := by
    by_contra hfail
    exact h.failed hfail he
  cases hm : queued.submitMeta.usesDynamicTasks with
  | true =>
      obtain ⟨hall, hperm⟩ := (h.dynamic hm).finished hne he hfail
      have hres : (indices (reservedSlots evs)).Perm (List.range queued.submitMeta.taskTotal.toNat) := by
        rw [indices, hall]
      exact ⟨hres, (hperm.map _).symm.trans hres⟩
  | false =>
      have hlanes := (h.static hm).finished hp hne he hfail
      have hres := (perm_flatMap_laneTasks (reservedSlots evs)).symm
      have hharv := (perm_flatMap_laneTasks (harvestedSlots evs)).symm
      simp only [fun l => (hlanes l).1] at hres
      simp only [fun l => (hlanes l).2] at hharv
      rw [SubmitMeta.Partitions] at hp
      rw [hp] at hres hharv
      exact ⟨hres, hharv⟩

/-- A submit that left without an error reports its target. -/
theorem Life.Inv.completedTaskCount_eq {id : RknpuQueueTaskId} {queued : RknpuQueuedSubmit}
    {evs : List SubmitEvent} {ℓ : Life} (h : Life.Inv id queued evs ℓ) (hne : ℓ.place ≠ .live)
    (he : ℓ.task.lastError = none) : ℓ.task.completedTaskCount = queued.submitMeta.completionTarget := by
  have hmeta := h.submitMeta
  rw [← UInt32.toNat_inj]
  cases hm : queued.submitMeta.usesDynamicTasks with
  | true =>
      rw [RknpuQueueTask.toNat_completedTaskCount_dynamic (by rw [hmeta, hm]), (h.dynamic hm).done hne he, hmeta,
        min_self, SubmitMeta.completionTarget, if_pos hm]
  | false =>
      rw [RknpuQueueTask.toNat_completedTaskCount_static (by rw [hmeta, hm]), (h.static hm).done hne he, hmeta,
        Nat.mod_eq_of_lt queued.submitMeta.completionTarget.toNat_lt, min_self]

/-- The descriptors of a finished submit: the submitted ones with their masked statuses. -/
def completedTasks (s : Nat → UInt32) (tasks : List RknpuTask) : List RknpuTask :=
  tasks.mapIdx fun i desc => { desc with intStatus := s i &&& desc.intMask }

theorem CleanInv.tasks_eq {s : Nat → UInt32} {tasks : List RknpuTask} {evs : List SubmitEvent} {ℓ : Life}
    (h : CleanInv s tasks evs ℓ) (hlen : ℓ.task.tasks.length = tasks.length) (hidle : ℓ.inflight = [])
    (hall : ∀ i < tasks.length, i ∈ indices (harvestedSlots evs)) : ℓ.task.tasks = completedTasks s tasks := by
  apply List.ext_getElem?
  intro i
  rw [completedTasks, List.getElem?_mapIdx]
  by_cases hi : i < tasks.length
  · obtain ⟨st, hst, hval⟩ := h.desc i _ (List.getElem?_eq_getElem hi)
    rw [hst, List.getElem?_eq_getElem hi, hval (hall i hi) (by rw [hidle]; exact List.not_mem_nil)]
    rfl
  · rw [List.getElem?_eq_none (by omega), List.getElem?_eq_none (by omega)]
    rfl

/-- The header that reports every task of a submit as done. -/
def RknpuQueuedSubmit.completedReply (queued : RknpuQueuedSubmit) : RknpuSubmit :=
  { RknpuSubmit.default with
    flags := queued.submitMeta.flags
    timeout := queued.reply.timeout
    taskStart := queued.reply.taskStart
    taskNumber := queued.submitMeta.taskTotal
    taskCounter := queued.submitMeta.taskTotal
    priority := queued.submitMeta.priority
    taskArrayCpuAddress := 0
    iommuDomainId := queued.reply.iommuDomainId
    reserved := queued.reply.reserved
    taskArrayDmaAddress := queued.submitMeta.taskArrayDmaAddress
    hwElapseTime := Int64.ofNat queued.submitMeta.taskTotal.toNat
    coreMask := queued.submitMeta.coreMask
    fenceFd := queued.reply.fenceFd
    subcoreTask := queued.submitMeta.laneRanges }

theorem Life.Inv.buildSubmit_eq {id : RknpuQueueTaskId} {queued : RknpuQueuedSubmit} {evs : List SubmitEvent}
    {ℓ : Life} (h : Life.Inv id queued evs ℓ) (hp : queued.submitMeta.Partitions) (hne : ℓ.place ≠ .live)
    (he : ℓ.task.lastError = none) : ℓ.task.buildSubmit = queued.completedReply := by
  have hmeta := h.submitMeta
  have hreply : ℓ.task.reply = queued.reply := congrArg (fun f => f.2.2.1) h.frame
  have hcount := (h.completedTaskCount_eq hne he).trans hp.completionTarget_eq
  have hdone : ℓ.task.isTerminalSuccess = true := by
    rw [RknpuQueueTask.isTerminalSuccess, he, hcount, RknpuQueueTask.completionTarget, hmeta, hp.completionTarget_eq]
    simp
  simp only [RknpuQueueTask.buildSubmit, RknpuQueuedSubmit.completedReply, hmeta, hreply, hcount, hdone, he,
    Option.isSome_none, Bool.false_eq_true, ↓reduceIte]

/-- A submit that is gone, was not aborted and was not dropped was taken. -/
theorem Life.Reach.taken {id : RknpuQueueTaskId} {queued : RknpuQueuedSubmit} {evs : List SubmitEvent} {ℓ : Life}
    (h : Life.Reach id queued evs ℓ) (hno : .aborted ∉ evs) (hdropped : .dropped ∉ evs) (hg : ℓ.place = .gone) :
    .taken ℓ.task ∈ evs := by
  induction h with
  | start timeNs => cases hg
  | step hreach hstep ih =>
      rw [List.mem_append, not_or] at hno hdropped
      rw [List.mem_append]
      cases hstep with
      | orphaned _ _ => exact .inl (ih hno.1 hdropped.1 hg)
      | taken => exact .inr (List.mem_singleton_self _)
      | dropped => exact (hdropped.2 (List.mem_singleton_self _)).elim
      | abortedLive => exact (hno.2 (List.mem_singleton_self _)).elim
      | abortedDone => exact (hno.2 (List.mem_singleton_self _)).elim
      | failed => exact (settledPlace_ne_gone hg).elim
      | harvested => exact (settledPlace_ne_gone hg).elim
      | reserved | launched | readFailed | woken => cases hg

end Rknpu.Queue
