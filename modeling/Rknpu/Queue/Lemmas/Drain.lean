import Rknpu.Queue.Lemmas.LifeInv

/-!
# When a submit has drained

A faulted submit leaves `tasks` only with nothing in flight. `is_terminal_success` makes no such check: a
static submit leaves as soon as the cursors add up to the target. `SubmitMeta.DrainsFirst` says for which
layouts the last completion is also the last task in flight.
-/

namespace Rknpu.Queue

open Finset
open scoped List

/-! ## Layouts -/

/-- The cores a submit may run on. -/
def SubmitMeta.allowedCores (m : SubmitMeta) : List Nat :=
  (List.range npuMaxCores).filter fun coreSlot =>
    m.coreMask == 0 || m.coreMask &&& coreMaskFromIndex coreSlot != 0

/-- No lane can still run when the target is reached: tasks are not bound to lanes, run one at a time
because of the mask or because they share one lane, or all have to be done. -/
def SubmitMeta.DrainsFirst (m : SubmitMeta) : Prop :=
  m.usesDynamicTasks = true ∨ m.allowedCores.length ≤ 1 ∨
    (∀ l l', 0 < m.laneCap l → 0 < m.laneCap l' → l = l') ∨ ∑ l, m.laneCap l ≤ m.completionTarget.toNat

instance (m : SubmitMeta) : Decidable m.DrainsFirst := by
  unfold SubmitMeta.DrainsFirst
  infer_instance

theorem mem_allowedCores {t : RknpuQueueTask} {coreSlot : Nat} :
    coreSlot ∈ t.submitMeta.allowedCores ↔ coreSlot < npuMaxCores ∧ t.allowsCore coreSlot = true := by
  simp only [SubmitMeta.allowedCores, List.mem_filter, List.mem_range, RknpuQueueTask.allowsCore]

/-- A record that is settled with an error outside `tasks` runs nothing. -/
theorem idle_of_settled {t : RknpuQueueTask} (hleft : settledPlace t ≠ .live) (herr : t.lastError ≠ none) :
    t.hasRunningTasks = false := by
  rcases settledPlace_ne_live.mp hleft with hsucc | hfault
  · rw [RknpuQueueTask.isTerminalSuccess, Bool.and_eq_true, Option.isNone_iff_eq_none] at hsucc
    exact (herr hsucc.1).elim
  · exact (RknpuQueueTask.isTerminalFault_iff.mp hfault).2

/-! ## Static submits -/

namespace StaticInv

variable {m : SubmitMeta} {evs evs' : List SubmitEvent} {ℓ : Life} {t t' : RknpuQueueTask} {p : Place}
  {fl : List Slot} {slot : Slot}

/-- When the other lanes are idle, the slot was the last one. -/
theorem erase_eq_nil (h : StaticInv m evs ⟨t, .live, fl⟩) (hmem : slot ∈ fl)
    (hidle : ∀ l, l ≠ slot.laneSlot → t.runs l = false) : fl.erase slot = [] := by
  refine eq_nil_of_laneTasks fun l => (h.laneTasks_erase rfl hmem l).trans ?_
  by_cases hl : l = slot.laneSlot
  · simp [hl]
  · simp [Function.update_of_ne hl, hidle l hl]

/-- A record without running bits has nothing in flight. -/
theorem erase_eq_nil_of_idle (h : StaticInv m evs ⟨t, .live, fl⟩) (hmem : slot ∈ fl)
    (hruns : t'.runs = Function.update t.runs slot.laneSlot false)
    (hs : t'.submitMeta.usesDynamicTasks = false) (hidle : t'.hasRunningTasks = false) :
    fl.erase slot = [] := by
  refine h.erase_eq_nil hmem fun l hl => ?_
  by_contra hr
  rw [Bool.not_eq_false] at hr
  have : t'.hasRunningTasks = true := by
    refine (RknpuQueueTask.hasRunningTasks_static hs).mpr ⟨l, ?_⟩
    rw [hruns, Function.update_of_ne hl, hr]
  rw [hidle] at this
  cases this

/-- The target is reached by the last task in flight. -/
theorem erase_eq_nil_of_done (h : StaticInv m evs ⟨t, .live, fl⟩) (h' : StaticInv m evs' ⟨t', p, fl.erase slot⟩)
    (hmem : slot ∈ fl) (hcores : (fl.map Slot.core).Nodup) (hallowed : ∀ slot ∈ fl, slot.core ∈ m.allowedCores)
    (hruns : t'.runs = Function.update t.runs slot.laneSlot false) (hs : m.usesDynamicTasks = false)
    (hdone : ∑ l, t'.cursor l = m.completionTarget.toNat) (hm : m.DrainsFirst) : fl.erase slot = [] := by
  have hruns' : ∀ l, l ≠ slot.laneSlot → t.runs l = true → t'.runs l = true := by
    intro l hl hr
    rw [hruns, Function.update_of_ne hl, hr]
  rcases hm with hd | hone | hlane | hall
  · rw [hs] at hd
    cases hd
  · -- At most one core, so at most one slot.
    have hle : (fl.map Slot.core).length ≤ m.allowedCores.length := by
      refine List.Subperm.length_le (hcores.subperm ?_)
      intro core hcore
      obtain ⟨slot', hslot', rfl⟩ := List.mem_map.mp hcore
      exact hallowed slot' hslot'
    rw [List.length_map] at hle
    refine List.eq_nil_of_length_eq_zero ?_
    rw [List.length_erase_of_mem hmem]
    omega
  · refine h.erase_eq_nil hmem fun l hl => ?_
    by_contra hr
    rw [Bool.not_eq_false] at hr
    have hlt := h'.cursor_lt l (hruns' l hl hr)
    have hlt' := h.cursor_lt _ (h.slot_mem rfl hmem).1
    exact hl (hlane l slot.laneSlot (by omega) (by omega))
  · refine h.erase_eq_nil hmem fun l hl => ?_
    by_contra hr
    rw [Bool.not_eq_false] at hr
    -- A running lane has a task left, so the cursors do not add up to all the capacities.
    have hlt : ∑ l, t'.cursor l < ∑ l, m.laneCap l :=
      sum_lt_sum (fun l _ => h'.cursor_le l) ⟨l, mem_univ l, h'.cursor_lt l (hruns' l hl hr)⟩
    omega

end StaticInv

/-! ## Whole lives -/

section

variable {id : RknpuQueueTaskId} {queued : RknpuQueuedSubmit} {evs evs' : List SubmitEvent} {ℓ ℓ' : Life}
  {e : SubmitEvent}

/-- A submit that has left does not come back, and nothing new of it is put in flight. -/
theorem Life.Step.left (h : Life.Step ℓ e ℓ') (hne : ℓ.place ≠ .live) :
    ℓ'.place ≠ .live ∧ ℓ'.inflight.Sublist ℓ.inflight := by
  rcases h.kinds with ⟨slot, rfl⟩ | ⟨slot, err, rfl⟩ | ⟨slot, status, timeNs, rfl⟩ | hq
  · cases h
    exact (hne rfl).elim
  · cases h
    exact (hne rfl).elim
  · cases h
    exact (hne rfl).elim
  · exact ⟨fun hl => hne (hq.live hl).1, hq.sublist⟩

/-- A submit that leaves `tasks` with an error leaves with nothing in flight. -/
theorem Life.Step.drained_of_fault (h : Life.Step ℓ e ℓ') (hinv : Life.Inv id queued evs ℓ)
    (hinv' : Life.Inv id queued evs' ℓ') (hlive : ℓ.place = .live) (hleft : ℓ'.place ≠ .live)
    (herr : ℓ'.task.lastError ≠ none) : ℓ'.inflight = [] := by
  cases hmode : queued.submitMeta.usesDynamicTasks with
  | true => exact (hinv'.dynamic hmode).left hleft
  | false =>
      have hs : ℓ.task.submitMeta.usesDynamicTasks = false := by rw [hinv.submitMeta, hmode]
      have hs' : ℓ'.task.submitMeta.usesDynamicTasks = false := by rw [hinv'.submitMeta, hmode]
      rcases h.kinds with ⟨slot, rfl⟩ | ⟨slot, err, rfl⟩ | ⟨slot, status, timeNs, rfl⟩ | hq
      · cases h
        exact (hleft rfl).elim
      · cases h with
        | @failed t fl _ _ hmem =>
            refine (hinv.static hmode).erase_eq_nil_of_idle hmem (RknpuQueueTask.runs_failDispatch hs err) hs' ?_
            exact idle_of_settled hleft herr
      · cases h with
        | @harvested t fl _ _ _ hmem =>
            obtain ⟨lat, hlat⟩ := RknpuQueueTask.harvestSlot_eq t slot status timeNs
            have hruns : (t.harvestSlot slot status timeNs).runs = Function.update t.runs slot.laneSlot false := by
              rw [hlat]
              exact RknpuQueueTask.runs_recordCompletion hs slot.taskIndex status
            refine (hinv.static hmode).erase_eq_nil_of_idle hmem hruns hs' ?_
            rw [hlat] at herr ⊢
            exact idle_of_settled hleft herr
      · have hidle : ℓ.inflight = [] := by
          by_contra hfl
          have hrun := (hinv.hasRunningTasks_iff hlive).mpr hfl
          rw [(hq.leave hlive hleft).1] at hrun
          cases hrun
        have hsub := hq.sublist
        rw [hidle] at hsub
        exact List.sublist_nil.mp hsub

/-- A submit whose layout drains first has nothing in flight once it has left `tasks`. -/
theorem Life.Reach.drained (hfits : queued.Fits) (hm : queued.submitMeta.DrainsFirst) (h : Life.Reach id queued evs ℓ)
    (hne : ℓ.place ≠ .live) : ℓ.inflight = [] := by
  cases hmode : queued.submitMeta.usesDynamicTasks with
  | true => exact ((h.inv hfits).dynamic hmode).left hne
  | false =>
      induction h with
      | start => exact (hne rfl).elim
      | @step evs ℓ ℓ' e hreach hstep ih =>
          have hinv := hreach.inv hfits
          have hinv' := (hreach.step hstep).inv hfits
          by_cases hlive : ℓ.place = .live
          · by_cases herr : ℓ'.task.lastError = none
            · -- Without an error, only a completion ends a submit.
              rcases hstep.kinds with ⟨slot, rfl⟩ | ⟨slot, err, rfl⟩ | ⟨slot, status, timeNs, rfl⟩ | hq
              · cases hstep
                exact (hne rfl).elim
              · cases hstep
                rw [RknpuQueueTask.lastError_failDispatch] at herr
                cases herr
              · cases hstep with
                | @harvested t fl _ _ _ hmem =>
                    obtain ⟨lat, hlat⟩ := RknpuQueueTask.harvestSlot_eq t slot status timeNs
                    have hs : t.submitMeta.usesDynamicTasks = false := hinv.submitMeta.symm ▸ hmode
                    have hruns : (t.harvestSlot slot status timeNs).runs =
                        Function.update t.runs slot.laneSlot false := by
                      rw [hlat]
                      exact RknpuQueueTask.runs_recordCompletion hs slot.taskIndex status
                    refine (hinv.static hmode).erase_eq_nil_of_done (hinv'.static hmode) hmem hinv.nodup ?_ hruns
                      hmode ((hinv'.static hmode).done hne herr) hm
                    intro slot' hslot'
                    rw [← hinv.submitMeta]
                    exact mem_allowedCores.mpr (hinv.cores slot' hslot')
              · exact ((hq.leave hlive hne).2 herr).elim
            · exact hstep.drained_of_fault hinv hinv' hlive hne herr
          · have hsub := (hstep.left hlive).2
            rw [ih hlive] at hsub
            exact List.sublist_nil.mp hsub

/-! ## Cores taken and given back -/

theorem Life.Step.balance (h : Life.Step ℓ e ℓ') :
    (reservedSlots [e] ++ ℓ.inflight).Perm (releasedSlots [e] ++ ℓ'.inflight) := by
  cases h with
  | failed hmem => exact List.perm_cons_erase hmem
  | harvested hmem => exact List.perm_cons_erase hmem
  | orphaned _ hmem => exact List.perm_cons_erase hmem
  | _ => exact .refl _

/-- What was reserved was given back or is in flight. -/
theorem Life.Reach.balance (h : Life.Reach id queued evs ℓ) :
    (reservedSlots evs).Perm (releasedSlots evs ++ ℓ.inflight) := by
  induction h with
  | start => exact .refl _
  | @step evs ℓ ℓ' e _ hstep ih =>
      rw [reservedSlots_append, releasedSlots_append]
      calc reservedSlots evs ++ reservedSlots [e]
        _ ~ releasedSlots evs ++ ℓ.inflight ++ reservedSlots [e] := ih.append_right _
        _ ~ releasedSlots evs ++ (reservedSlots [e] ++ ℓ.inflight) := by
            rw [List.append_assoc]
            exact List.perm_append_comm.append_left _
        _ ~ releasedSlots evs ++ (releasedSlots [e] ++ ℓ'.inflight) := hstep.balance.append_left _
        _ = releasedSlots evs ++ releasedSlots [e] ++ ℓ'.inflight := (List.append_assoc ..).symm

theorem Life.Reach.inflight_eq_nil (h : Life.Reach id queued evs ℓ)
    (hreleased : (reservedSlots evs).Perm (releasedSlots evs)) : ℓ.inflight = [] := by
  have hlength := (hreleased.symm.trans h.balance).length_eq
  rw [List.length_append] at hlength
  exact List.eq_nil_of_length_eq_zero (by omega)

end

end Rknpu.Queue
