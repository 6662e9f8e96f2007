import Rknpu.Queue.Lemmas.Operations

/-!
# Ledgers and events

How the ledgers of a history grow with one event, and the four kinds of events: a reservation, a failed
dispatch, a harvested completion, and the quiet ones, which leave the progress of the submit alone.
-/

namespace Rknpu.Queue

/-! ## Task indices -/

/-- The task indices of some slots. -/
def indices (slots : List Slot) : List Nat := slots.map (·.taskIndex.toNat)

theorem count_indices_eq_one {slots : List Slot} {n i : Nat} (h : (indices slots).Perm (List.range n)) (hi : i < n) :
    (indices slots).count i = 1 := by
  rw [h.count_eq]
  exact List.count_eq_one_of_mem List.nodup_range (List.mem_range.mpr hi)

/-! ## Tasks of one lane -/

/-- The task indices of a list of slots that belong to one lane. -/
def laneTasks (l : LaneSlot) (slots : List Slot) : List Nat :=
  (slots.filter fun slot => slot.laneSlot = l).map fun slot => slot.taskIndex.toNat

section

variable {l : LaneSlot} {slot : Slot} {slots slots' : List Slot}

@[simp] theorem laneTasks_nil : laneTasks l [] = [] := rfl

theorem laneTasks_append : laneTasks l (slots ++ slots') = laneTasks l slots ++ laneTasks l slots' := by
  simp [laneTasks]

theorem laneTasks_cons_self : laneTasks slot.laneSlot (slot :: slots) =
    slot.taskIndex.toNat :: laneTasks slot.laneSlot slots := by
  simp [laneTasks]

theorem laneTasks_cons_of_ne (h : slot.laneSlot ≠ l) : laneTasks l (slot :: slots) = laneTasks l slots := by
  simp [laneTasks, h]

theorem laneTasks_singleton_of_ne (h : slot.laneSlot ≠ l) : laneTasks l [slot] = [] :=
  laneTasks_cons_of_ne h

theorem laneTasks_perm (h : slots.Perm slots') : (laneTasks l slots).Perm (laneTasks l slots') :=
  (h.filter _).map _

theorem laneTasks_erase_of_ne (h : slot.laneSlot ≠ l) (hmem : slot ∈ slots) :
    (laneTasks l (slots.erase slot)).Perm (laneTasks l slots) := by
  have hperm := laneTasks_perm (l := l) (List.perm_cons_erase hmem)
  rw [laneTasks_cons_of_ne h] at hperm
  exact hperm.symm

theorem laneTasks_erase_self (hmem : slot ∈ slots) :
    (laneTasks slot.laneSlot slots).Perm
      (slot.taskIndex.toNat :: laneTasks slot.laneSlot (slots.erase slot)) := by
  have hperm := laneTasks_perm (l := slot.laneSlot) (List.perm_cons_erase hmem)
  rwa [laneTasks_cons_self] at hperm

/-- The tasks of all lanes are all tasks. -/
theorem perm_flatMap_laneTasks (slots : List Slot) :
    ((List.finRange rknpuMaxSubcoreTasks).flatMap fun l => laneTasks l slots).Perm (indices slots) := by
  induction slots with
  | nil => exact .refl _
  | cons slot slots ih =>
      have hone : ((List.finRange rknpuMaxSubcoreTasks).flatMap fun l =>
          if slot.laneSlot = l then [slot.taskIndex.toNat] else []) = [slot.taskIndex.toNat] := by
        generalize slot.laneSlot = l
        fin_cases l <;> rfl
      have hcons : (fun l => laneTasks l (slot :: slots)) = fun l =>
          (if slot.laneSlot = l then [slot.taskIndex.toNat] else []) ++ laneTasks l slots := by
        funext l
        by_cases hl : slot.laneSlot = l
        · subst hl
          rw [laneTasks_cons_self, if_pos rfl]
          rfl
        · rw [laneTasks_cons_of_ne hl, if_neg hl]
          rfl
      have hperm := List.flatMap_append_perm (List.finRange rknpuMaxSubcoreTasks)
        (fun l => if slot.laneSlot = l then [slot.taskIndex.toNat] else []) fun l => laneTasks l slots
      rw [hcons]
      rw [hone] at hperm
      exact hperm.symm.trans (ih.cons _)

/-- The task of a slot, without the core it runs on. -/
def Slot.task (slot : Slot) : LaneSlot × UInt32 := (slot.laneSlot, slot.taskIndex)

theorem nodup_task_of_laneTasks (h : ∀ l, (laneTasks l slots).Nodup) : (slots.map Slot.task).Nodup := by
  induction slots with
  | nil => exact List.nodup_nil
  | cons slot slots ih =>
      rw [List.map_cons, List.nodup_cons]
      constructor
      · intro hmem
        obtain ⟨slot', hmem', he⟩ := List.mem_map.mp hmem
        obtain ⟨hlane, hindex⟩ := Prod.mk.inj he
        have hself := h slot.laneSlot
        rw [laneTasks_cons_self, List.nodup_cons] at hself
        refine hself.1 (List.mem_map.mpr ⟨slot', ?_, congrArg UInt32.toNat hindex⟩)
        simpa [hmem'] using hlane
      · refine ih fun l => (h l).sublist ?_
        exact ((List.sublist_cons_self slot slots).filter _).map _

theorem laneTasks_eq_nil_iff : laneTasks l slots = [] ↔ ∀ slot ∈ slots, slot.laneSlot ≠ l := by
  simp [laneTasks]

theorem eq_nil_of_laneTasks (h : ∀ l, laneTasks l slots = []) : slots = [] := by
  cases slots with
  | nil => rfl
  | cons slot slots =>
      have := h slot.laneSlot
      rw [laneTasks_cons_self] at this
      cases this

end

/-! ## One event more -/

section

variable {evs : List SubmitEvent} {e : SubmitEvent}

@[simp] theorem reservedSlots_append (evs evs' : List SubmitEvent) :
    reservedSlots (evs ++ evs') = reservedSlots evs ++ reservedSlots evs' := List.filterMap_append ..

@[simp] theorem launchedSlots_append (evs evs' : List SubmitEvent) :
    launchedSlots (evs ++ evs') = launchedSlots evs ++ launchedSlots evs' := List.filterMap_append ..

@[simp] theorem harvestedSlots_append (evs evs' : List SubmitEvent) :
    harvestedSlots (evs ++ evs') = harvestedSlots evs ++ harvestedSlots evs' := List.filterMap_append ..

@[simp] theorem failedSlots_append (evs evs' : List SubmitEvent) :
    failedSlots (evs ++ evs') = failedSlots evs ++ failedSlots evs' := List.filterMap_append ..

@[simp] theorem releasedSlots_append (evs evs' : List SubmitEvent) :
    releasedSlots (evs ++ evs') = releasedSlots evs ++ releasedSlots evs' := List.filterMap_append ..

theorem harvestedSlots_sublist (evs : List SubmitEvent) : (harvestedSlots evs).Sublist (releasedSlots evs) := by
  induction evs with
  | nil => exact .slnil
  | cons e evs ih =>
      cases e with
      | harvested => exact ih.cons_cons _
      | failed => exact ih.cons _
      | orphaned => exact ih.cons _
      | _ => exact ih

end

/-! ## Quiet events -/

/-- An event that changes neither the progress of the submit nor its ledgers. -/
structure Life.Quiet (ℓ : Life) (e : SubmitEvent) (ℓ' : Life) : Prop where
  task : ∃ err lat, ℓ'.task = { ℓ.task with lastError := err, latency := lat }
  ledger : reservedSlots [e] = [] ∧ harvestedSlots [e] = [] ∧ failedSlots [e] = []
  sublist : ℓ'.inflight.Sublist ℓ.inflight
  live : ℓ'.place = .live → ℓ.place = .live ∧ ℓ'.inflight = ℓ.inflight
  leave : ℓ.place = .live → ℓ'.place ≠ .live → ℓ.task.hasRunningTasks = false ∧ ℓ'.task.lastError ≠ none
  error : ℓ'.task.lastError = none → ℓ.task.lastError = none
  drain : ℓ'.place = .live → ℓ'.task.lastError ≠ none →
    ℓ.task.lastError ≠ none ∨ ℓ.task.hasRunningTasks = true

/-- Every event is a reservation, a failure, a completion, or quiet. -/
theorem Life.Step.kinds {ℓ ℓ' : Life} {e : SubmitEvent} (h : Life.Step ℓ e ℓ') :
    (∃ slot, e = .reserved slot) ∨ (∃ slot err, e = .failed slot err) ∨
      (∃ slot status timeNs, e = .harvested slot status timeNs) ∨ Life.Quiet ℓ e ℓ' := by
  cases h with
  | reserved => exact .inl ⟨_, rfl⟩
  | failed => exact .inr (.inl ⟨_, _, rfl⟩)
  | harvested => exact .inr (.inr (.inl ⟨_, _, _, rfl⟩))
  | @launched t fl slot timeNs hmem =>
      have htask : ∃ lat, t.markFirstDispatch timeNs = { t with latency := lat } := by
        unfold RknpuQueueTask.markFirstDispatch
        split
        · exact ⟨_, rfl⟩
        · exact ⟨t.latency, rfl⟩
      obtain ⟨lat, hlat⟩ := htask
      refine .inr (.inr (.inr ⟨⟨t.lastError, lat, hlat⟩, ⟨rfl, rfl, rfl⟩, .refl _, fun _ => ⟨rfl, rfl⟩, ?_, ?_, ?_⟩))
      · intro _ hne
        exact (hne rfl).elim
      · intro he
        simpa [hlat] using he
      · intro _ he
        exact .inl (by simpa [hlat] using he)
  | orphaned hp _ =>
      exact .inr (.inr (.inr ⟨⟨_, _, rfl⟩, ⟨rfl, rfl, rfl⟩, List.erase_sublist, fun hl => (hp hl).elim,
        fun hl _ => (hp hl).elim, id, fun hl _ => (hp hl).elim⟩))
  | readFailed =>
      exact .inr (.inr (.inr ⟨⟨_, _, rfl⟩, ⟨rfl, rfl, rfl⟩, .refl _, nofun, nofun, nofun, nofun⟩))
  | woken =>
      exact .inr (.inr (.inr ⟨⟨_, _, rfl⟩, ⟨rfl, rfl, rfl⟩, .refl _, nofun, nofun, id, nofun⟩))
  | dropped =>
      exact .inr (.inr (.inr ⟨⟨_, _, rfl⟩, ⟨rfl, rfl, rfl⟩, .refl _, nofun, nofun, id, nofun⟩))
  | @abortedLive t fl =>
      refine .inr (.inr (.inr ⟨⟨_, _, rfl⟩, ⟨rfl, rfl, rfl⟩, .refl _, fun _ => ⟨rfl, rfl⟩, ?_, nofun, ?_⟩))
      · intro _ hne
        cases hr : t.hasRunningTasks with
        | false => exact ⟨rfl, nofun⟩
        | true => simp [hr] at hne
      · intro hl _
        cases hr : t.hasRunningTasks with
        | false => simp [hr] at hl
        | true => exact .inr rfl
  | abortedDone =>
      exact .inr (.inr (.inr ⟨⟨_, _, rfl⟩, ⟨rfl, rfl, rfl⟩, .refl _, nofun, nofun, id, nofun⟩))
  | taken =>
      exact .inr (.inr (.inr ⟨⟨_, _, rfl⟩, ⟨rfl, rfl, rfl⟩, .refl _, nofun, nofun, id, nofun⟩))

end Rknpu.Queue
