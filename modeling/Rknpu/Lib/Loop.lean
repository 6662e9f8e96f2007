import Mathlib

/-!
# Loops with fuel

A loop takes one turn after another until a turn answers with a result. The turns are numbered, so that a turn
may depend on what the environment does at that point. A measure that every turn lowers bounds the number of
turns, and an invariant of the turns holds where the loop returns.
-/

variable {σ ρ : Type}

/-- Take turns from number `k` on. The result comes with the number of the turn that returned it. -/
def loopFor (turn : Nat → σ → σ ⊕ ρ) : Nat → Nat → σ → Option (Nat × ρ)
  | 0, _, _ => none
  | fuel + 1, k, s =>
      match turn k s with
      | .inl s' => loopFor turn fuel (k + 1) s'
      | .inr r => some (k, r)

section

variable {turn : Nat → σ → σ ⊕ ρ} {I : σ → Prop}

/-- The loop returns from a state that satisfies the invariant. -/
theorem loopFor_inv (hkeep : ∀ k s s', I s → turn k s = .inl s' → I s') {fuel k n : Nat} {s : σ} {r : ρ}
    (h : loopFor turn fuel k s = some (n, r)) (hs : I s) : ∃ s', I s' ∧ turn n s' = .inr r := by
  induction fuel generalizing k s with
  | zero => cases h
  | succ fuel ih =>
      rw [loopFor] at h
      cases hturn : turn k s with
      | inl s' =>
          rw [hturn] at h
          exact ih h (hkeep k s s' hs hturn)
      | inr r' =>
          rw [hturn] at h
          cases h
          exact ⟨s, hs, hturn⟩

/-- A measure that every turn lowers is fuel enough, and bounds the number of turns. -/
theorem loopFor_returns (hkeep : ∀ k s s', I s → turn k s = .inl s' → I s') (μ : σ → Nat)
    (hlower : ∀ k s s', I s → turn k s = .inl s' → μ s' < μ s) {fuel k : Nat} {s : σ} (hs : I s)
    (hfuel : μ s < fuel) : ∃ n r, loopFor turn fuel k s = some (n, r) ∧ n ≤ k + μ s := by
  induction fuel generalizing k s with
  | zero => omega
  | succ fuel ih =>
      rw [loopFor]
      cases hturn : turn k s with
      | inr r => exact ⟨k, r, rfl, Nat.le_add_right _ _⟩
      | inl s' =>
          have hlt := hlower k s s' hs hturn
          obtain ⟨n, r, hloop, hn⟩ := ih (k := k + 1) (hkeep k s s' hs hturn) (by omega)
          exact ⟨n, r, hloop, by omega⟩

end
