import Rknpu.Queue.Lemmas.Ledger

/-!
# Progress of a static submit

Every lane hands out its tasks in order, one at a time. What a lane has reserved, harvested and has in
flight is determined by its cursor and its running bit, in every state of the submit's life.
-/

namespace Rknpu.Queue

open Finset

/-- The agreement of cursors, running bits and ledgers. -/
structure StaticInv (m : SubmitMeta) (evs : List SubmitEvent) (ℓ : Life) : Prop where
  cursor_le : ∀ l, ℓ.task.cursor l ≤ m.laneCap l
  cursor_lt : ∀ l, ℓ.task.runs l = true → ℓ.task.cursor l < m.laneCap l
  reserved : ∀ l, laneTasks l (reservedSlots evs) =
    List.range' (m.laneStart l)
      (ℓ.task.cursor l + (if ℓ.task.runs l then 1 else 0) + (laneTasks l (failedSlots evs)).length)
  harvested : ∀ l, laneTasks l (harvestedSlots evs) = List.range' (m.laneStart l) (ℓ.task.cursor l)
  bound : ℓ.place = .live → ∀ l, laneTasks l ℓ.inflight =
    if ℓ.task.runs l then [m.laneStart l + ℓ.task.cursor l] else []
  unfinished : ℓ.place = .live → ℓ.task.lastError = none →
    ∑ l, ℓ.task.cursor l < m.completionTarget.toNat ∨ m.taskTotal.toNat = 0
  done : ℓ.place ≠ .live → ℓ.task.lastError = none → ∑ l, ℓ.task.cursor l = m.completionTarget.toNat

namespace StaticInv

variable {m : SubmitMeta} {evs : List SubmitEvent} {ℓ ℓ' : Life} {t : RknpuQueueTask} {fl : List Slot}
  {slot : Slot}

theorem start (id : RknpuQueueTaskId) (queued : RknpuQueuedSubmit) (timeNs : UInt64)
    (hs : queued.submitMeta.usesDynamicTasks = false) :
    StaticInv queued.submitMeta [] (Life.start id queued timeNs) := by
  have hcursor : ∀ l, (Life.start id queued timeNs).task.cursor l = 0 := by
    intro l
    simp [Life.start, RknpuQueueTask.cursor, RknpuQueueTask.markEnqueued, RknpuQueueTask.new]
  have hruns : ∀ l, (Life.start id queued timeNs).task.runs l = false := by
    intro l
    simp [Life.start, RknpuQueueTask.runs, RknpuQueueTask.markEnqueued, RknpuQueueTask.new]
  refine ⟨?_, ?_, ?_, ?_, ?_, ?_, ?_⟩
  · intro l
    simp [hcursor]
  · intro l hr
    simp [hruns] at hr
  · intro l
    simp [hcursor, hruns, reservedSlots, failedSlots]
  · intro l
    simp [hcursor, harvestedSlots]
  · intro _ l
    rw [hruns]
    rfl
  · intro _ _
    simp only [hcursor, sum_const_zero]
    -- A target of zero means that there is no task: a zero lane total falls back to the task total.
    by_contra hno
    obtain ⟨hzero, hT⟩ := not_or.mp hno
    have htarget : queued.submitMeta.completionTarget.toNat = 0 := by omega
    simp only [SubmitMeta.completionTarget, hs, Bool.false_eq_true, ↓reduceIte] at htarget
    split at htarget
    · exact hT htarget
    · rename_i htotal
      rw [UInt32.toNat_min] at htarget
      rw [← UInt32.toNat_inj, UInt32.toNat_zero] at htotal
      omega
  · intro hne
    exact (hne rfl).elim

/-- Lanes advance one task at a time, so only one of their tasks is in flight. -/
theorem slot_mem (h : StaticInv m evs ℓ) (hlive : ℓ.place = .live) (hmem : slot ∈ ℓ.inflight) :
    ℓ.task.runs slot.laneSlot = true ∧
      slot.taskIndex.toNat = m.laneStart slot.laneSlot + ℓ.task.cursor slot.laneSlot ∧
      laneTasks slot.laneSlot (ℓ.inflight.erase slot) = [] := by
  have hbound := h.bound hlive slot.laneSlot
  have hperm := laneTasks_erase_self hmem
  cases hr : ℓ.task.runs slot.laneSlot with
  | false =>
      simp only [hbound, hr, Bool.false_eq_true, ↓reduceIte] at hperm
      exact (List.cons_ne_nil _ _ (List.nil_perm.mp hperm)).elim
  | true =>
      simp only [hbound, hr, ↓reduceIte] at hperm
      have heq := List.singleton_perm.mp hperm
      rw [List.cons.injEq] at heq
      exact ⟨rfl, heq.1.symm, heq.2.symm⟩

theorem runs_eq_false (h : StaticInv m evs ℓ) (hlive : ℓ.place = .live) (hidle : ℓ.inflight = []) (l : LaneSlot) :
    ℓ.task.runs l = false := by
  have hbound := h.bound hlive l
  rw [hidle, laneTasks_nil] at hbound
  by_contra hr
  rw [if_pos (by simpa using hr)] at hbound
  cases hbound

theorem laneTasks_erase (h : StaticInv m evs ℓ) (hlive : ℓ.place = .live) (hmem : slot ∈ ℓ.inflight)
    (l : LaneSlot) : laneTasks l (ℓ.inflight.erase slot) =
      if Function.update ℓ.task.runs slot.laneSlot false l then [m.laneStart l + ℓ.task.cursor l] else [] := by
  by_cases hl : l = slot.laneSlot
  · subst hl
    simp [(h.slot_mem hlive hmem).2.2]
  · have hperm := laneTasks_erase_of_ne (Ne.symm hl) hmem
    rw [h.bound hlive l] at hperm
    rw [Function.update_of_ne hl]
    cases hr : ℓ.task.runs l with
    | false =>
        simp only [hr, Bool.false_eq_true, ↓reduceIte] at hperm ⊢
        exact List.perm_nil.mp hperm
    | true =>
        simp only [hr, ↓reduceIte] at hperm ⊢
        exact List.perm_singleton.mp hperm

theorem quiet (h : StaticInv m evs ℓ) {e : SubmitEvent} (hq : Life.Quiet ℓ e ℓ') :
    StaticInv m (evs ++ [e]) ℓ' := by
  obtain ⟨err, lat, htask⟩ := hq.task
  obtain ⟨hres, hharv, hfail⟩ := hq.ledger
  have hruns : ℓ'.task.runs = ℓ.task.runs := by rw [htask]; rfl
  have hcursor : ℓ'.task.cursor = ℓ.task.cursor := by rw [htask]; rfl
  refine ⟨?_, ?_, ?_, ?_, ?_, ?_, ?_⟩
  · rw [hcursor]
    exact h.cursor_le
  · rw [hcursor, hruns]
    exact h.cursor_lt
  · rw [hcursor, hruns]
    simpa [hres, hfail] using h.reserved
  · rw [hcursor]
    simpa [hharv] using h.harvested
  · intro hl
    obtain ⟨hlive, hinflight⟩ := hq.live hl
    rw [hcursor, hruns, hinflight]
    exact h.bound hlive
  · intro hl he
    rw [hcursor]
    exact h.unfinished (hq.live hl).1 (hq.error he)
  · intro hne he
    rw [hcursor]
    refine h.done ?_ (hq.error he)
    intro hl
    exact (hq.leave hl hne).2 he

theorem reserve (h : StaticInv m evs ⟨t, .live, fl⟩) (hm : t.submitMeta = m)
    (hs : m.usesDynamicTasks = false) (hlen : m.taskTotal.toNat ≤ t.tasks.length)
    (hfailed : failedSlots evs ≠ [] → t.lastError ≠ none)
    (hnext : t.nextDispatchableTask = some (slot.laneSlot, slot.taskIndex)) :
    StaticInv m (evs ++ [.reserved slot]) ⟨t.reserveSlot slot, .live, slot :: fl⟩ := by
  subst hm
  have hnofail : failedSlots evs = [] := by
    by_contra hne
    exact hfailed hne (RknpuQueueTask.lastError_of_nextDispatchableTask hnext)
  obtain ⟨hidle, hlt, hidx⟩ := RknpuQueueTask.nextDispatchableTask_static hs hlen hnext
  have hruns : (t.reserveSlot slot).runs = Function.update t.runs slot.laneSlot true := by
    rw [RknpuQueueTask.reserveSlot_static hs hnext]
    exact RknpuQueueTask.runs_set t slot.laneSlot true
  have hcursor : (t.reserveSlot slot).cursor = t.cursor := by
    rw [RknpuQueueTask.reserveSlot_static hs hnext]
    rfl
  refine ⟨?_, ?_, ?_, ?_, ?_, ?_, ?_⟩
  · simpa only [hcursor] using h.cursor_le
  · intro l hr
    simp only [hcursor, hruns] at hr ⊢
    by_cases hl : l = slot.laneSlot
    · subst hl
      exact hlt
    · rw [Function.update_of_ne hl] at hr
      exact h.cursor_lt l hr
  · intro l
    have hres := h.reserved l
    have hone : reservedSlots [.reserved slot] = [slot] := rfl
    have hnone : failedSlots [.reserved slot] = [] := rfl
    simp only [hnofail, laneTasks_nil, List.length_nil, Nat.add_zero] at hres
    simp only [reservedSlots_append, failedSlots_append, hnofail, hone, hnone, laneTasks_append,
      laneTasks_nil, List.append_nil, List.length_nil, Nat.add_zero, hres, hcursor, hruns]
    by_cases hl : l = slot.laneSlot
    · subst hl
      simp only [Function.update_self, hidle, ↓reduceIte, Bool.false_eq_true, Nat.add_zero]
      rw [laneTasks_cons_self, laneTasks_nil, List.range'_concat, hidx, Nat.one_mul]
    · rw [Function.update_of_ne hl, laneTasks_singleton_of_ne (Ne.symm hl), List.append_nil]
  · intro l
    simpa [hcursor, harvestedSlots] using h.harvested l
  · intro _ l
    have hbound := h.bound rfl l
    simp only [hcursor, hruns] at hbound ⊢
    by_cases hl : l = slot.laneSlot
    · subst hl
      rw [laneTasks_cons_self, hbound, hidle, hidx]
      simp
    · rw [laneTasks_cons_of_ne (Ne.symm hl), hbound, Function.update_of_ne hl]
  · intro _ he
    simp only [hcursor]
    exact h.unfinished rfl (by simpa [RknpuQueueTask.lastError_reserveSlot] using he)
  · intro hne
    exact (hne rfl).elim

theorem fail (h : StaticInv m evs ⟨t, .live, fl⟩) (hm : t.submitMeta = m)
    (hs : m.usesDynamicTasks = false) (hmem : slot ∈ fl) (err : RknpuError) :
    StaticInv m (evs ++ [.failed slot err])
      ⟨t.failDispatch slot.laneSlot err, settledPlace (t.failDispatch slot.laneSlot err), fl.erase slot⟩ := by
  subst hm
  obtain ⟨hrun, hidx, _⟩ := h.slot_mem rfl hmem
  have hruns := RknpuQueueTask.runs_failDispatch (l := slot.laneSlot) hs err
  have hcursor := RknpuQueueTask.cursor_failDispatch t slot.laneSlot err
  have herr := RknpuQueueTask.lastError_failDispatch t slot.laneSlot err
  refine ⟨?_, ?_, ?_, ?_, ?_, ?_, ?_⟩
  · simpa only [hcursor] using h.cursor_le
  · intro l hr
    simp only [hcursor, hruns] at hr ⊢
    by_cases hl : l = slot.laneSlot
    · simp [hl] at hr
    · rw [Function.update_of_ne hl] at hr
      exact h.cursor_lt l hr
  · intro l
    have hres := h.reserved l
    have hone : failedSlots [.failed slot err] = [slot] := rfl
    have hnone : reservedSlots [.failed slot err] = [] := rfl
    simp only [reservedSlots_append, failedSlots_append, hone, hnone, laneTasks_append, List.append_nil,
      List.length_append, hres, hcursor, hruns]
    by_cases hl : l = slot.laneSlot
    · subst hl
      simp only [Function.update_self, hrun, ↓reduceIte, Bool.false_eq_true, laneTasks_cons_self,
        laneTasks_nil, List.length_singleton]
      congr 1
      omega
    · rw [Function.update_of_ne hl, laneTasks_singleton_of_ne (Ne.symm hl)]
      rfl
  · intro l
    simpa [hcursor, harvestedSlots] using h.harvested l
  · intro _ l
    rw [hcursor, hruns]
    exact h.laneTasks_erase rfl hmem l
  · intro _ he
    rw [herr] at he
    cases he
  · intro _ he
    rw [herr] at he
    cases he

theorem harvest (h : StaticInv m evs ⟨t, .live, fl⟩) (hm : t.submitMeta = m)
    (hs : m.usesDynamicTasks = false) (hlen : m.taskTotal.toNat ≤ t.tasks.length) (hmem : slot ∈ fl)
    (status : UInt32) (timeNs : UInt64) :
    StaticInv m (evs ++ [.harvested slot status timeNs])
      ⟨t.harvestSlot slot status timeNs,
        settledPlace (t.recordCompletion slot.laneSlot slot.taskIndex status), fl.erase slot⟩ := by
  subst hm
  obtain ⟨hrun, hidx, _⟩ := h.slot_mem rfl hmem
  have hlt := h.cursor_lt _ hrun
  have hi : slot.taskIndex.toNat < t.tasks.length := by
    simp only [SubmitMeta.laneCap] at hlt hidx
    omega
  obtain ⟨lat, hlat⟩ := RknpuQueueTask.harvestSlot_eq t slot status timeNs
  rw [hlat]
  have herr := RknpuQueueTask.lastError_recordCompletion (l := slot.laneSlot) hi status
  have hmeta : (t.recordCompletion slot.laneSlot slot.taskIndex status).submitMeta = t.submitMeta :=
    congrArg (fun f => f.2.1) (RknpuQueueTask.frame_recordCompletion t slot.laneSlot slot.taskIndex status)
  have hruns : (t.recordCompletion slot.laneSlot slot.taskIndex status).runs =
      Function.update t.runs slot.laneSlot false :=
    RknpuQueueTask.runs_recordCompletion hs _ status
  have hcursor : (t.recordCompletion slot.laneSlot slot.taskIndex status).cursor =
      Function.update t.cursor slot.laneSlot (t.cursor slot.laneSlot + 1) := by
    rw [RknpuQueueTask.recordCompletion_eq hi, ← RknpuQueueTask.cursor_completeDispatch hs hlt]
    rfl
  generalize t.recordCompletion slot.laneSlot slot.taskIndex status = t' at *
  have hruns' : ({ t' with latency := lat } : RknpuQueueTask).runs = t'.runs := rfl
  have hcursor' : ({ t' with latency := lat } : RknpuQueueTask).cursor = t'.cursor := rfl
  -- Without an error the sum of the cursors stays at or below the target, so it does not wrap.
  have hsum : ∑ l, t'.cursor l = ∑ l, t.cursor l + 1 := by
    rw [hcursor]
    exact sum_update_succ t.cursor slot.laneSlot
  have hbelow : t'.lastError = none → ∑ l, t'.cursor l ≤ t.submitMeta.completionTarget.toNat := by
    intro he
    have hbefore : t.lastError = none := by
      rw [herr] at he
      split at he
      · cases he
      · exact he
    rcases h.unfinished rfl hbefore with hlt' | hT
    · rw [hsum]
      exact hlt'
    · simp only [SubmitMeta.laneCap] at hlt
      omega
  have hsuccess : t'.lastError = none →
      (t'.isTerminalSuccess = true ↔ t.submitMeta.completionTarget.toNat ≤ ∑ l, t'.cursor l) := by
    intro he
    have hT := t.submitMeta.completionTarget.toNat_lt
    have hle := hbelow he
    rw [RknpuQueueTask.isTerminalSuccess_static (by rw [hmeta]; exact hs), Nat.mod_eq_of_lt (by omega)]
    simp only [he, true_and, RknpuQueueTask.completionTarget, hmeta]
  refine ⟨?_, ?_, ?_, ?_, ?_, ?_, ?_⟩
  · intro l
    rw [hcursor', hcursor]
    by_cases hl : l = slot.laneSlot
    · subst hl
      rw [Function.update_self]
      exact hlt
    · rw [Function.update_of_ne hl]
      exact h.cursor_le l
  · intro l hr
    rw [hruns', hruns] at hr
    rw [hcursor', hcursor]
    by_cases hl : l = slot.laneSlot
    · simp [hl] at hr
    · rw [Function.update_of_ne hl] at hr ⊢
      exact h.cursor_lt l hr
  · intro l
    have hres := h.reserved l
    have hnone : reservedSlots [.harvested slot status timeNs] = [] := rfl
    have hnone' : failedSlots [.harvested slot status timeNs] = [] := rfl
    rw [hruns', hcursor']
    simp only [reservedSlots_append, failedSlots_append, hnone, hnone', List.append_nil, hres, hcursor, hruns]
    by_cases hl : l = slot.laneSlot
    · subst hl
      simp only [Function.update_self, hrun, ↓reduceIte, Bool.false_eq_true]
    · rw [Function.update_of_ne hl, Function.update_of_ne hl]
  · intro l
    have hharv := h.harvested l
    have hone : harvestedSlots [.harvested slot status timeNs] = [slot] := rfl
    rw [hcursor', hcursor]
    simp only [harvestedSlots_append, hone, laneTasks_append, hharv]
    by_cases hl : l = slot.laneSlot
    · subst hl
      rw [Function.update_self, laneTasks_cons_self, laneTasks_nil, List.range'_concat, hidx, Nat.one_mul]
    · rw [Function.update_of_ne hl, laneTasks_singleton_of_ne (Ne.symm hl), List.append_nil]
  · intro _ l
    rw [hruns', hcursor', hruns, hcursor, h.laneTasks_erase rfl hmem l]
    by_cases hl : l = slot.laneSlot
    · simp [hl]
    · rw [Function.update_of_ne hl, Function.update_of_ne hl]
  · intro hlive he
    have hnot := (settledPlace_eq_live.mp hlive).1
    have hiff := hsuccess he
    rw [hnot] at hiff
    rw [hcursor']
    exact .inl (by simpa using hiff)
  · intro hne he
    have hle := hbelow he
    have hiff := hsuccess he
    rw [hcursor']
    rcases settledPlace_ne_live.mp hne with hsucc | hfault
    · exact le_antisymm hle (hiff.mp hsucc)
    · exact ((RknpuQueueTask.isTerminalFault_iff.mp hfault).1 he).elim

end StaticInv

end Rknpu.Queue
