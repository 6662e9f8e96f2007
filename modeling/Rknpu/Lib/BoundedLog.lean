import Mathlib

/-!
# Logs with a limit

A log keeps the entries that came first, as many as fit, and remembers that some did not. `Keeps` relates it to all
entries that were pushed; a snapshot of a smaller capacity says whether it is everything.
-/

structure BoundedLog (α : Type) where
  entries : List α
  overflowed : Bool
deriving Repr

namespace BoundedLog

variable {α : Type} {limit : Nat} {b : BoundedLog α} {xs : List α}

def empty : BoundedLog α := ⟨[], false⟩

/-- Append an entry, or mark that it did not fit. -/
def push (limit : Nat) (b : BoundedLog α) (x : α) : BoundedLog α :=
  if limit ≤ b.entries.length then { b with overflowed := true } else { b with entries := b.entries ++ [x] }

/-- The first entries, and whether some are missing. -/
def snapshot (capacity : Nat) (b : BoundedLog α) : List α × Bool :=
  let count := min b.entries.length capacity
  (b.entries.take count, b.overflowed || decide (count < b.entries.length))

theorem mem_entries_push {x y : α} (h : y ∈ (b.push limit x).entries) : y ∈ b.entries ∨ y = x := by
  unfold push at h
  split at h
  · exact .inl h
  · exact (List.mem_append.mp h).imp_right List.mem_singleton.mp

/-- The log of everything that was pushed. -/
structure Keeps (limit : Nat) (xs : List α) (b : BoundedLog α) : Prop where
  entries : b.entries = xs.take limit
  overflowed : b.overflowed = true ↔ limit < xs.length

theorem Keeps.nil (limit : Nat) : Keeps limit [] (empty : BoundedLog α) :=
  ⟨List.take_nil.symm, iff_of_false nofun (Nat.not_lt_zero _)⟩

theorem Keeps.length_entries (h : Keeps limit xs b) : b.entries.length = min limit xs.length := by
  rw [h.entries, List.length_take]

theorem Keeps.push (h : Keeps limit xs b) (x : α) : Keeps limit (xs ++ [x]) (b.push limit x) := by
  have hlength := h.length_entries
  unfold BoundedLog.push
  split
  · rename_i hfull
    refine ⟨?_, iff_of_true rfl ?_⟩
    · rw [List.take_append_of_le_length (by omega)]
      exact h.entries
    · rw [List.length_append, List.length_singleton]
      omega
  · rename_i hroom
    refine ⟨?_, h.overflowed.trans ?_⟩
    · rw [List.take_of_length_le (by rw [List.length_append, List.length_singleton]; omega)]
      change b.entries ++ [x] = xs ++ [x]
      rw [h.entries, List.take_of_length_le (by omega)]
    · rw [List.length_append, List.length_singleton]
      omega

/-- A snapshot is a part of what was pushed, from the start. -/
theorem Keeps.snapshot_prefix (h : Keeps limit xs b) (capacity : Nat) : (b.snapshot capacity).1 <+: xs := by
  change b.entries.take _ <+: xs
  rw [h.entries]
  exact (List.take_prefix _ _).trans (List.take_prefix _ _)

/-- A snapshot is complete exactly when nothing is reported missing. -/
theorem Keeps.snapshot_complete_iff (h : Keeps limit xs b) (capacity : Nat) :
    (b.snapshot capacity).2 = false ↔ (b.snapshot capacity).1 = xs := by
  have hlength := h.length_entries
  have hflag : (b.snapshot capacity).2 = false ↔ ¬ limit < xs.length ∧ b.entries.length ≤ capacity := by
    change (b.overflowed || decide (min b.entries.length capacity < b.entries.length)) = false ↔ _
    rw [Bool.or_eq_false_iff, ← Bool.not_eq_true, h.overflowed, decide_eq_false_iff_not]
    exact and_congr_right fun _ => by omega
  have hprefix := h.snapshot_prefix capacity
  have htaken : (b.snapshot capacity).1.length = min capacity (min limit xs.length) := by
    change (b.entries.take (min b.entries.length capacity)).length = _
    rw [List.length_take]
    omega
  rw [hflag]
  constructor
  · intro hall
    exact hprefix.eq_of_length (by omega)
  · intro heq
    rw [heq] at htaken
    omega

end BoundedLog

/-! ## Projections of a log -/

/-- The entry behind an element of a projection. -/
theorem List.exists_of_filterMap_eq_append_cons {α β : Type} {f : α → Option β} {log : List α} {before after : List β}
    {b : β} (h : log.filterMap f = before ++ b :: after) :
    ∃ log₁ a log₂, log = log₁ ++ a :: log₂ ∧ log₁.filterMap f = before ∧ f a = some b := by
  obtain ⟨log₁, rest, rfl, hbefore, hrest⟩ := List.filterMap_eq_append_iff.mp h
  obtain ⟨skipped, a, log₂, rfl, hskipped, ha, _⟩ := List.filterMap_eq_cons_iff.mp hrest
  refine ⟨log₁ ++ skipped, a, log₂, by simp, ?_, ha⟩
  rw [List.filterMap_append, hbefore, List.filterMap_eq_nil_iff.mpr hskipped, List.append_nil]

/-- Where the projection has an element once, one entry is behind it. -/
theorem List.exists_filter_eq_singleton {α β : Type} [DecidableEq β] {f : α → Option β} {log : List α} {b : β}
    (hnodup : (log.filterMap f).Nodup) (hmem : b ∈ log.filterMap f) :
    ∃ a, log.filter (fun a => f a = some b) = [a] ∧ f a = some b := by
  obtain ⟨before, after, hlog⟩ := List.append_of_mem hmem
  obtain ⟨log₁, a, log₂, rfl, hbefore, ha⟩ := exists_of_filterMap_eq_append_cons hlog
  rw [filterMap_append, filterMap_cons_some ha, nodup_append, nodup_cons] at hnodup
  obtain ⟨_, ⟨hafter, _⟩, hdisjoint⟩ := hnodup
  refine ⟨a, ?_, ha⟩
  have hfirst : log₁.filter (fun a => f a = some b) = [] :=
    filter_eq_nil_iff.mpr fun a' ha' he =>
      hdisjoint b (mem_filterMap.mpr ⟨a', ha', of_decide_eq_true he⟩) b mem_cons_self rfl
  have hlast : log₂.filter (fun a => f a = some b) = [] :=
    filter_eq_nil_iff.mpr fun a' ha' he => hafter (mem_filterMap.mpr ⟨a', ha', of_decide_eq_true he⟩)
  simp [hfirst, hlast, ha]
