import Mathlib

/-!
# Programs that call the outside

A program returns, fails, or makes a call and goes on with the answer. Which answers are possible is a relation, so a
statement about a program is a statement about all its runs. `Prog.Calls` says that all calls of all runs are allowed;
`Prog.Wp` says how all runs end, with the calls they made. The rules below take both apart along the program, also below
a state.
-/

/-- A program with calls `Q`, answers `A` and errors `ε`. -/
inductive Prog (Q : Type) (A : Q → Type) (ε α : Type) where
  | done (a : α)
  | fail (err : ε)
  | call (q : Q) (k : A q → Prog Q A ε α)

namespace Prog

variable {Q : Type} {A : Q → Type} {ε ε' α β : Type}

protected def bind : Prog Q A ε α → (α → Prog Q A ε β) → Prog Q A ε β
  | done a, f => f a
  | fail err, _ => fail err
  | call q k, f => call q fun a => (k a).bind f

instance : Monad (Prog Q A ε) where
  pure := done
  bind := Prog.bind

/-- Make a call and return the answer. -/
def ask (q : Q) : Prog Q A ε (A q) := call q done

def ofExcept : Except ε α → Prog Q A ε α
  | .ok a => done a
  | .error err => fail err

def mapError (f : ε → ε') : Prog Q A ε α → Prog Q A ε' α
  | done a => done a
  | fail err => fail (f err)
  | call q k => call q fun a => (k a).mapError f

/-- Go on after a failure. -/
protected def tryCatch : Prog Q A ε α → (ε → Prog Q A ε α) → Prog Q A ε α
  | done a, _ => done a
  | fail err, handler => handler err
  | call q k, handler => call q fun a => (k a).tryCatch handler

instance : MonadExceptOf ε (Prog Q A ε) where
  throw := fail
  tryCatch := Prog.tryCatch

/-! ## Runs -/

section

variable (ok : ∀ q, A q → Prop)

/-- Every call that a run can make satisfies `p`. -/
def Calls (p : Q → Prop) : Prog Q A ε α → Prop
  | done _ | fail _ => True
  | call q k => p q ∧ ∀ a, ok q a → (k a).Calls p

/-- Some run returns `b`. -/
def Returns : Prog Q A ε α → α → Prop
  | done a, b => a = b
  | fail _, _ => False
  | call q k, b => ∃ a, ok q a ∧ (k a).Returns b

/-- Every run that returns ends in `post`, which also sees the calls of the run, and every run that fails in `exc`. -/
def Wp : Prog Q A ε α → (List Q → α → Prop) → (ε → Prop) → Prop
  | done a, post, _ => post [] a
  | fail err, _, exc => exc err
  | call q k, post, exc => ∀ a, ok q a → (k a).Wp (fun qs => post (q :: qs)) exc

end

/-- The run under given answers: its calls and its result. -/
def exec (ans : ∀ q, A q) : Prog Q A ε α → List Q × Except ε α
  | done a => ([], .ok a)
  | fail err => ([], .error err)
  | call q k => (q :: ((k (ans q)).exec ans).1, ((k (ans q)).exec ans).2)

variable {ok : ∀ q, A q → Prop} {p : Q → Prop}

/-! ## Rules -/

@[simp] theorem calls_pure (a : α) : Calls ok p (pure a : Prog Q A ε α) := trivial

@[simp] theorem calls_done (a : α) : Calls ok p (done a : Prog Q A ε α) := trivial

@[simp] theorem calls_fail (err : ε) : Calls ok p (fail err : Prog Q A ε α) := trivial

@[simp] theorem calls_ask {q : Q} : Calls ok p (ask q : Prog Q A ε (A q)) ↔ p q := by
  simp [ask, Calls]

@[simp] theorem calls_ofExcept (r : Except ε α) : Calls ok p (ofExcept r : Prog Q A ε α) := by
  cases r <;> trivial

@[simp] theorem returns_pure {a b : α} : Returns ok (pure a : Prog Q A ε α) b ↔ a = b := Iff.rfl

@[simp] theorem returns_done {a b : α} : Returns ok (done a : Prog Q A ε α) b ↔ a = b := Iff.rfl

@[simp] theorem not_returns_fail {err : ε} {b : α} : ¬ Returns ok (fail err : Prog Q A ε α) b := id

@[simp] theorem returns_ask {q : Q} {a : A q} : Returns ok (ask q : Prog Q A ε (A q)) a ↔ ok q a := by
  simp [ask, Returns]

@[simp] theorem returns_ofExcept {r : Except ε α} {a : α} :
    Returns ok (ofExcept r : Prog Q A ε α) a ↔ r = .ok a := by
  cases r <;> simp [ofExcept]

@[simp] theorem calls_bind {m : Prog Q A ε α} {f : α → Prog Q A ε β} :
    Calls ok p (m >>= f) ↔ Calls ok p m ∧ ∀ a, Returns ok m a → Calls ok p (f a) := by
  change Calls ok p (m.bind f) ↔ _
  induction m with
  | done a => simp [Prog.bind, Calls, Returns]
  | fail err => simp [Prog.bind, Calls, Returns]
  | call q k ih =>
      simp only [Prog.bind, Calls, Returns, ih]
      grind

@[simp] theorem returns_bind {m : Prog Q A ε α} {f : α → Prog Q A ε β} {b : β} :
    Returns ok (m >>= f) b ↔ ∃ a, Returns ok m a ∧ Returns ok (f a) b := by
  change Returns ok (m.bind f) b ↔ _
  induction m with
  | done a => simp [Prog.bind, Returns]
  | fail err => simp [Prog.bind, Returns]
  | call q k ih =>
      simp only [Prog.bind, Returns, ih]
      grind

@[simp] theorem calls_mapError {f : ε → ε'} {m : Prog Q A ε α} : Calls ok p (m.mapError f) ↔ Calls ok p m := by
  induction m with
  | done a => exact Iff.rfl
  | fail err => exact Iff.rfl
  | call q k ih => simp only [mapError, Calls, ih]

@[simp] theorem returns_mapError {f : ε → ε'} {m : Prog Q A ε α} {a : α} :
    Returns ok (m.mapError f) a ↔ Returns ok m a := by
  induction m with
  | done b => exact Iff.rfl
  | fail err => exact Iff.rfl
  | call q k ih => simp only [mapError, Returns, ih]

@[simp] theorem calls_ite {c : Prop} [Decidable c] {m m' : Prog Q A ε α} :
    Calls ok p (if c then m else m') ↔ (c → Calls ok p m) ∧ (¬ c → Calls ok p m') := by
  split <;> simp_all

@[simp] theorem returns_ite {c : Prop} [Decidable c] {m m' : Prog Q A ε α} {a : α} :
    Returns ok (if c then m else m') a ↔ (c ∧ Returns ok m a) ∨ (¬ c ∧ Returns ok m' a) := by
  split <;> simp_all

/-! ## Weakest preconditions -/

section

variable {post post' : List Q → α → Prop} {exc exc' : ε → Prop}

@[simp] theorem wp_pure {a : α} : Wp ok (pure a : Prog Q A ε α) post exc ↔ post [] a := Iff.rfl

@[simp] theorem wp_done {a : α} : Wp ok (done a : Prog Q A ε α) post exc ↔ post [] a := Iff.rfl

@[simp] theorem wp_fail {err : ε} : Wp ok (fail err : Prog Q A ε α) post exc ↔ exc err := Iff.rfl

@[simp] theorem wp_throw {err : ε} : Wp ok (throw err : Prog Q A ε α) post exc ↔ exc err := Iff.rfl

@[simp] theorem wp_ask {q : Q} {post : List Q → A q → Prop} :
    Wp ok (ask q : Prog Q A ε (A q)) post exc ↔ ∀ a, ok q a → post [q] a := Iff.rfl

@[simp] theorem wp_ite {c : Prop} [Decidable c] {m m' : Prog Q A ε α} :
    Wp ok (if c then m else m') post exc ↔ (c → Wp ok m post exc) ∧ (¬ c → Wp ok m' post exc) := by
  split <;> simp_all

@[simp] theorem wp_bind {m : Prog Q A ε α} {f : α → Prog Q A ε β} {post : List Q → β → Prop} :
    Wp ok (m >>= f) post exc ↔ Wp ok m (fun qs a => Wp ok (f a) (fun qs' => post (qs ++ qs')) exc) exc := by
  change Wp ok (m.bind f) post exc ↔ _
  induction m generalizing post with
  | done a => rfl
  | fail err => rfl
  | call q k ih => simp only [Prog.bind, Wp, ih, List.cons_append]

theorem Wp.mono {m : Prog Q A ε α} (h : Wp ok m post exc) (hpost : ∀ qs a, post qs a → post' qs a)
    (hexc : ∀ err, exc err → exc' err) : Wp ok m post' exc' := by
  induction m generalizing post post' with
  | done a => exact hpost [] a h
  | fail err => exact hexc err h
  | call q k ih => exact fun a ha => ih a (h a ha) fun qs => hpost (q :: qs)

theorem Wp.trivial (m : Prog Q A ε α) : Wp ok m (fun _ _ => True) fun _ => True := by
  induction m with
  | done a => exact True.intro
  | fail err => exact True.intro
  | call q k ih => exact fun a _ => ih a

/-- What is known of the value is enough for the rest, whatever the calls were. -/
theorem Wp.seq {m : Prog Q A ε α} {f : α → Prog Q A ε β} {known : α → Prop} {post : List Q → β → Prop}
    (hm : Wp ok m (fun _ => known) exc) (hf : ∀ qs a, known a → Wp ok (f a) (fun qs' => post (qs ++ qs')) exc) :
    Wp ok (m >>= f) post exc :=
  wp_bind.mpr (hm.mono hf fun _ => id)

@[simp] theorem wp_mapError {f : ε → ε'} {m : Prog Q A ε α} {exc : ε' → Prop} :
    Wp ok (m.mapError f) post exc ↔ Wp ok m post fun err => exc (f err) := by
  induction m generalizing post with
  | done a => rfl
  | fail err => rfl
  | call q k ih => simp only [mapError, Wp, ih]

/-- The calls before a failure are not seen, so the postcondition must not ask for them. -/
theorem wp_tryCatch {m : Prog Q A ε α} {handler : ε → Prog Q A ε α} {good : α → Prop} :
    Wp ok (m.tryCatch handler) (fun _ => good) exc ↔
      Wp ok m (fun _ => good) fun err => Wp ok (handler err) (fun _ => good) exc := by
  induction m with
  | done a => rfl
  | fail err => rfl
  | call q k ih => simp only [Prog.tryCatch, Wp, ih]

theorem Wp.and {m : Prog Q A ε α} (h : Wp ok m post exc) (h' : Wp ok m post' exc') :
    Wp ok m (fun qs a => post qs a ∧ post' qs a) fun err => exc err ∧ exc' err := by
  induction m generalizing post post' with
  | done a => exact ⟨h, h'⟩
  | fail err => exact ⟨h, h'⟩
  | call q k ih => exact fun a ha => ih a (h a ha) (h' a ha)

/-- A run that returns ends in the postcondition. -/
theorem Wp.of_returns {m : Prog Q A ε α} {a : α} (h : Wp ok m post exc) (hret : Returns ok m a) :
    ∃ qs, post qs a := by
  induction m generalizing post with
  | done b =>
      cases hret
      exact ⟨[], h⟩
  | fail err => exact hret.elim
  | call q k ih =>
      obtain ⟨b, hb, hret⟩ := hret
      obtain ⟨qs, hqs⟩ := ih b (h b hb) hret
      exact ⟨q :: qs, hqs⟩

/-- One run is among all of them. -/
theorem Wp.exec {m : Prog Q A ε α} {ans : ∀ q, A q} (h : Wp ok m post exc) (hans : ∀ q, ok q (ans q)) :
    (∀ a, (m.exec ans).2 = .ok a → post (m.exec ans).1 a) ∧ ∀ err, (m.exec ans).2 = .error err → exc err := by
  induction m generalizing post with
  | done a =>
      refine ⟨fun b hb => ?_, nofun⟩
      cases hb
      exact h
  | fail err =>
      refine ⟨nofun, fun err' herr => ?_⟩
      cases herr
      exact h
  | call q k ih => exact ih (ans q) (h (ans q) (hans q))

end

/-! ## Programs over a state -/

section

variable {σ : Type} {s : σ} {exc : ε → Prop}

@[simp] theorem wp_run_pure {a : α} {post : List Q → α × σ → Prop} :
    Wp ok ((pure a : StateT σ (Prog Q A ε) α).run s) post exc ↔ post [] (a, s) := Iff.rfl

@[simp] theorem wp_run_bind {m : StateT σ (Prog Q A ε) α} {f : α → StateT σ (Prog Q A ε) β}
    {post : List Q → β × σ → Prop} :
    Wp ok ((m >>= f).run s) post exc ↔
      Wp ok (m.run s) (fun qs r => Wp ok ((f r.1).run r.2) (fun qs' => post (qs ++ qs')) exc) exc := by
  rw [StateT.run_bind, wp_bind]

@[simp] theorem wp_run_lift {m : Prog Q A ε α} {post : List Q → α × σ → Prop} :
    Wp ok ((StateT.lift m : StateT σ (Prog Q A ε) α).run s) post exc ↔ Wp ok m (fun qs a => post qs (a, s)) exc := by
  change Wp ok (m >>= fun a => pure (a, s)) post exc ↔ _
  simp

@[simp] theorem wp_run_get {post : List Q → σ × σ → Prop} :
    Wp ok ((get : StateT σ (Prog Q A ε) σ).run s) post exc ↔ post [] (s, s) := Iff.rfl

@[simp] theorem wp_run_modify {f : σ → σ} {post : List Q → PUnit × σ → Prop} :
    Wp ok ((modify f : StateT σ (Prog Q A ε) PUnit).run s) post exc ↔ post [] (⟨⟩, f s) := Iff.rfl

@[simp] theorem wp_run_ite {c : Prop} [Decidable c] {m m' : StateT σ (Prog Q A ε) α} {post : List Q → α × σ → Prop} :
    Wp ok ((if c then m else m').run s) post exc ↔
      (c → Wp ok (m.run s) post exc) ∧ (¬ c → Wp ok (m'.run s) post exc) := by
  split <;> simp_all

@[simp] theorem wp_run_throw {err : ε} {post : List Q → α × σ → Prop} :
    Wp ok ((throw err : StateT σ (Prog Q A ε) α).run s) post exc ↔ exc err := Iff.rfl

/-- A failure takes the state back. -/
theorem wp_run_tryCatch {m : StateT σ (Prog Q A ε) α} {handler : ε → StateT σ (Prog Q A ε) α} {good : α × σ → Prop} :
    Wp ok ((tryCatch m handler).run s) (fun _ => good) exc ↔
      Wp ok (m.run s) (fun _ => good) fun err => Wp ok ((handler err).run s) (fun _ => good) exc :=
  wp_tryCatch

@[simp] theorem returns_run_pure {a : α} {r : α × σ} :
    Returns ok ((pure a : StateT σ (Prog Q A ε) α).run s) r ↔ (a, s) = r := Iff.rfl

@[simp] theorem returns_run_bind {m : StateT σ (Prog Q A ε) α} {f : α → StateT σ (Prog Q A ε) β} {r : β × σ} :
    Returns ok ((m >>= f).run s) r ↔ ∃ a, Returns ok (m.run s) a ∧ Returns ok ((f a.1).run a.2) r := by
  rw [StateT.run_bind, returns_bind]

@[simp] theorem returns_run_lift {m : Prog Q A ε α} {r : α × σ} :
    Returns ok ((StateT.lift m : StateT σ (Prog Q A ε) α).run s) r ↔ Returns ok m r.1 ∧ r.2 = s := by
  change Returns ok (m >>= fun a => pure (a, s)) r ↔ _
  obtain ⟨a, s'⟩ := r
  simp only [returns_bind, returns_pure, Prod.mk.injEq]
  grind

@[simp] theorem returns_run_get {r : σ × σ} :
    Returns ok ((get : StateT σ (Prog Q A ε) σ).run s) r ↔ (s, s) = r := Iff.rfl

@[simp] theorem returns_run_modify {f : σ → σ} {r : PUnit × σ} :
    Returns ok ((modify f : StateT σ (Prog Q A ε) PUnit).run s) r ↔ (⟨⟩, f s) = r := Iff.rfl

@[simp] theorem returns_run_ite {c : Prop} [Decidable c] {m m' : StateT σ (Prog Q A ε) α} {r : α × σ} :
    Returns ok ((if c then m else m').run s) r ↔
      (c ∧ Returns ok (m.run s) r) ∨ (¬ c ∧ Returns ok (m'.run s) r) := by
  split <;> simp_all

end

end Prog
