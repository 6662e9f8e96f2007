import Mathlib

/-!
# Runs of a machine

A machine has an initial state and a computable step that answers `none` when an action is not enabled.
A run is a list of actions, all enabled. Invariants are proved once per step and carried to every run by
`Machine.run_induction`.
-/

/-- States `σ`, actions `α`, and a step that may refuse an action. -/
structure Machine (σ α : Type) where
  init : σ
  step : σ → α → Option σ

namespace Machine

variable {σ α : Type} (M : Machine σ α)

/-- Take the actions one after another. -/
def runFrom : σ → List α → Option σ
  | s, [] => some s
  | s, a :: as => (M.step s a).bind fun s' => runFrom s' as

/-- Take the actions from the initial state. -/
def run (as : List α) : Option σ := M.runFrom M.init as

variable {M}

theorem runFrom_append (s : σ) (as bs : List α) :
    M.runFrom s (as ++ bs) = (M.runFrom s as).bind fun s' => M.runFrom s' bs := by
  induction as generalizing s with
  | nil => rfl
  | cons a as ih =>
      simp only [List.cons_append, runFrom, Option.bind_assoc]
      cases M.step s a with
      | none => rfl
      | some s₁ => exact ih s₁

theorem run_append_singleton (as : List α) (a : α) :
    M.run (as ++ [a]) = (M.run as).bind fun s => M.step s a := by
  unfold run
  rw [runFrom_append]
  congr 1
  funext s
  cases h : M.step s a <;> simp [runFrom, h]

/-- One action more. -/
theorem run_snoc {as : List α} {s s' : σ} {a : α} (h : M.run as = some s) (hs : M.step s a = some s') :
    M.run (as ++ [a]) = some s' := by
  rw [run_append_singleton, h, Option.bind_some, hs]

theorem run_append {as bs : List α} {s s' : σ} (h : M.run as = some s) (h' : M.runFrom s bs = some s') :
    M.run (as ++ bs) = some s' := by
  have happend := runFrom_append (M := M) M.init as bs
  rw [show M.runFrom M.init as = some s from h, Option.bind_some, h'] at happend
  exact happend

/-- A check of one step of a run, as it is evaluated on a given list of actions. -/
theorem exists_step {as : List α} {a : α} {p : σ → σ → Prop} [∀ s s', Decidable (p s s')]
    (h : ((M.run as).any fun s => (M.step s a).any fun s' => decide (p s s')) = true) :
    ∃ s s', M.run as = some s ∧ M.step s a = some s' ∧ p s s' := by
  obtain ⟨s, hrun, hs⟩ := (Option.any_eq_true _ _).mp h
  obtain ⟨s', hstep, hp⟩ := (Option.any_eq_true _ _).mp hs
  exact ⟨s, s', hrun, hstep, of_decide_eq_true hp⟩

/-- A check of one step of a run and of what follows it. -/
theorem exists_step_run (as : List α) (a : α) (bs : List α) {p : σ → σ → σ → Prop} [∀ s s₁ s', Decidable (p s s₁ s')]
    (h : ((M.run as).any fun s => (M.step s a).any fun s₁ => (M.runFrom s₁ bs).any fun s' => decide (p s s₁ s')) = true) :
    ∃ s s₁ s', M.run as = some s ∧ M.step s a = some s₁ ∧ M.runFrom s₁ bs = some s' ∧ p s s₁ s' := by
  obtain ⟨s, hrun, hs⟩ := (Option.any_eq_true _ _).mp h
  obtain ⟨s₁, hstep, hs₁⟩ := (Option.any_eq_true _ _).mp hs
  obtain ⟨s', hafter, hp⟩ := (Option.any_eq_true _ _).mp hs₁
  exact ⟨s, s₁, s', hrun, hstep, hafter, of_decide_eq_true hp⟩

/-- What holds of the start and is kept by every step of a run from there holds at its end. -/
theorem runFrom_induction {P : List α → σ → Prop} {s₀ : σ} (hnil : P [] s₀)
    (hstep : ∀ as s a s', M.runFrom s₀ as = some s → P as s → M.step s a = some s' → P (as ++ [a]) s') :
    ∀ {as s}, M.runFrom s₀ as = some s → P as s := by
  intro as
  induction as using List.reverseRecOn with
  | nil =>
      intro s h
      cases h
      exact hnil
  | append_singleton as a ih =>
      intro s h
      rw [runFrom_append] at h
      obtain ⟨s₁, h₁, h₂⟩ := Option.bind_eq_some_iff.mp h
      simp only [runFrom, Option.bind_eq_some_iff, Option.some.injEq, exists_eq_right] at h₂
      exact hstep as s₁ a s h₁ (ih h₁) h₂

/-- The induction over the runs from the initial state. -/
theorem run_induction {P : List α → σ → Prop} (hnil : P [] M.init)
    (hstep : ∀ as s a s', M.run as = some s → P as s → M.step s a = some s' → P (as ++ [a]) s') :
    ∀ {as s}, M.run as = some s → P as s :=
  runFrom_induction hnil hstep

/-- Some actions lead from one state to the other. -/
def Reaches (M : Machine σ α) (s s' : σ) : Prop := ∃ as, M.runFrom s as = some s'

theorem Reaches.refl (s : σ) : M.Reaches s s := ⟨[], rfl⟩

theorem Reaches.step {s s₁ s' : σ} {a : α} (h : M.Reaches s s₁) (hs : M.step s₁ a = some s') : M.Reaches s s' := by
  obtain ⟨as, has⟩ := h
  refine ⟨as ++ [a], ?_⟩
  rw [runFrom_append, has, Option.bind_some, runFrom, hs]
  rfl

/-- The run takes the action `a` in the state `s`. -/
def Takes (M : Machine σ α) (as : List α) (s : σ) (a : α) : Prop :=
  ∃ before after, as = before ++ a :: after ∧ M.run before = some s

/-- An action that is taken is enabled, and the run goes on from there. -/
theorem Takes.step {as : List α} {s s' : σ} {a : α} (h : M.Takes as s a) (hrun : M.run as = some s') :
    ∃ s₁ after, M.step s a = some s₁ ∧ M.runFrom s₁ after = some s' := by
  obtain ⟨before, after, rfl, hbefore⟩ := h
  have hall := (runFrom_append M.init before (a :: after)).symm.trans hrun
  rw [show M.runFrom M.init before = some s from hbefore, Option.bind_some, runFrom] at hall
  obtain ⟨s₁, hstep, hafter⟩ := Option.bind_eq_some_iff.mp hall
  exact ⟨s₁, after, hstep, hafter⟩

theorem Takes.run {as : List α} {s : σ} {a : α} (h : M.Takes as s a) : ∃ before, M.run before = some s := by
  obtain ⟨before, _, _, hbefore⟩ := h
  exact ⟨before, hbefore⟩

/-- When a step from a good state is good exactly under a condition, a run is good throughout exactly when all its
steps meet the condition. -/
theorem run_forall_iff {P : σ → Prop} {C : σ → α → Prop} (hinit : P M.init)
    (hstep : ∀ before s a s', M.run before = some s → P s → M.step s a = some s' → (P s' ↔ C s a))
    {as : List α} {s : σ} (hrun : M.run as = some s) :
    (∀ before after s, as = before ++ after → M.run before = some s → P s) ↔ ∀ s a, M.Takes as s a → C s a := by
  constructor
  · intro hgood s a htakes
    obtain ⟨s₁, _, hs, _⟩ := htakes.step hrun
    obtain ⟨before, after, he, hbefore⟩ := htakes
    have hafter : P s₁ := hgood (before ++ [a]) after s₁ (by simp [he]) (run_snoc hbefore hs)
    exact (hstep before s a s₁ hbefore (hgood before _ s he hbefore) hs).mp hafter
  · intro hmeets before after s he hbefore
    refine run_induction (P := fun before s => ∀ after, as = before ++ after → P s) (fun _ _ => hinit) ?_ hbefore after he
    intro before s a s' hbefore ih hs after he
    have he' : as = before ++ a :: after := by simp [he]
    exact (hstep before s a s' hbefore (ih _ he') hs).mpr (hmeets s a ⟨before, after, he', hbefore⟩)

/-- The induction over runs whose steps are all allowed. -/
theorem run_induction_of_takes {P : List α → σ → Prop} {ok : σ → α → Prop} (hnil : P [] M.init)
    (hstep : ∀ as s a s', P as s → ok s a → M.step s a = some s' → P (as ++ [a]) s') {as : List α} {s : σ}
    (hrun : M.run as = some s) (hok : ∀ s a, M.Takes as s a → ok s a) : P as s := by
  refine run_induction (P := fun before s => ∀ after, as = before ++ after → P before s)
    (fun _ _ => hnil) ?_ hrun [] (List.append_nil as).symm
  intro before s a s' hbefore ih hs after he
  have he' : as = before ++ a :: after := by simp [he]
  exact hstep before s a s' (ih _ he') (hok s a ⟨before, after, he', hbefore⟩) hs

/-- Forward simulation: when every allowed step of one machine is matched by the other, so is every run whose steps are
all allowed. -/
theorem run_simulation {τ : Type} {N : Machine τ α} {R : σ → τ → Prop} {ok : σ → α → Prop} (hinit : R M.init N.init)
    (hstep : ∀ s t a s', R s t → ok s a → M.step s a = some s' → ∃ t', N.step t a = some t' ∧ R s' t')
    {as : List α} {s : σ} (hrun : M.run as = some s) (hok : ∀ s a, M.Takes as s a → ok s a) :
    ∃ t, N.run as = some t ∧ R s t := by
  refine run_induction_of_takes (P := fun as s => ∃ t, N.run as = some t ∧ R s t) ⟨N.init, rfl, hinit⟩ ?_ hrun hok
  rintro as s a s' ⟨t, ht, hR⟩ hallowed hs
  obtain ⟨t', ht', hR'⟩ := hstep s t a s' hR hallowed hs
  exact ⟨t', run_snoc ht ht', hR'⟩

/-- Check every step of a run that starts in the given state. -/
def checkFrom (M : Machine σ α) (p : σ → α → Bool) : σ → List α → Bool
  | _, [] => true
  | s, a :: as => p s a && (M.step s a).all fun s' => checkFrom M p s' as

/-- What is checked step by step holds of every step that is taken. -/
theorem forall_takes_of_check {p : σ → α → Bool} {as : List α} (h : M.checkFrom p M.init as = true) :
    ∀ s a, M.Takes as s a → p s a = true := by
  rintro s a ⟨before, after, rfl, hbefore⟩
  unfold run at hbefore
  generalize M.init = s₀ at h hbefore
  induction before generalizing s₀ with
  | nil =>
      cases hbefore
      exact (Bool.and_eq_true_iff.mp h).1
  | cons b before ih =>
      obtain ⟨s₁, hs, hrest⟩ := Option.bind_eq_some_iff.mp hbefore
      have hcheck := (Bool.and_eq_true_iff.mp h).2
      rw [hs] at hcheck
      exact ih s₁ hcheck hrest

/-! ## Total steps -/

/-- When a step from a good state is good exactly under a condition, a run is good throughout exactly when all its
steps meet the condition. `I` is what all steps from good states keep. -/
theorem foldl_forall_iff {step : σ → α → σ} {I P : σ → Prop} {C : σ → α → Prop} {s : σ} (hI : I s) (hP : P s)
    (hkeeps : ∀ s a, I s → P s → I (step s a)) (hstep : ∀ s a, I s → P s → (P (step s a) ↔ C s a)) (as : List α) :
    (∀ before after, as = before ++ after → P (before.foldl step s)) ↔
      ∀ before a after, as = before ++ a :: after → C (before.foldl step s) a := by
  constructor
  · intro h
    have hinv : ∀ before after, as = before ++ after → I (before.foldl step s) := by
      intro before
      induction before using List.reverseRecOn with
      | nil => exact fun _ _ => hI
      | append_singleton before a ih =>
          intro after he
          have he' : as = before ++ a :: after := by simp [he]
          rw [List.foldl_append]
          exact hkeeps _ _ (ih _ he') (h before _ he')
    intro before a after he
    refine (hstep _ a (hinv before _ he) (h before _ he)).mp ?_
    have hnext := h (before ++ [a]) after (by simp [he])
    rwa [List.foldl_append] at hnext
  · intro h
    have hboth : ∀ before after, as = before ++ after → I (before.foldl step s) ∧ P (before.foldl step s) := by
      intro before
      induction before using List.reverseRecOn with
      | nil => exact fun _ _ => ⟨hI, hP⟩
      | append_singleton before a ih =>
          intro after he
          have he' : as = before ++ a :: after := by simp [he]
          obtain ⟨hI', hP'⟩ := ih _ he'
          rw [List.foldl_append]
          exact ⟨hkeeps _ _ hI' hP', (hstep _ a hI' hP').mpr (h before a after he')⟩
    exact fun before after he => (hboth before after he).2

end Machine
