import Rknpu.Lib.TreeMap

/-!
# FIFO queues keyed by priority

An ordered map from priorities to queues. An element is pushed at the back of the queue of its priority,
removed wherever it stands, or popped as the first element, by priority and then by position, that
satisfies a predicate. A queue that becomes empty is dropped from the map.

The operations are written as loops over the keys. The lemmas say what each does to one lookup and to
membership, so that a client never unfolds a loop.
-/

/-- Queues of `α` keyed by priorities `κ`, smallest key first. -/
abbrev PrioBuckets (κ α : Type) [Ord κ] : Type := Std.ExtTreeMap κ (List α) compare

namespace PrioBuckets

variable {κ α β : Type} [Ord κ] [Std.TransOrd κ]

/-! ## Membership and well-formedness -/

/-- The element stands in the queue of this priority. -/
def MemAt (b : PrioBuckets κ α) (p : κ) (x : α) : Prop :=
  ∃ queue, b[p]? = some queue ∧ x ∈ queue

/-- The element stands in some queue. -/
def Holds (b : PrioBuckets κ α) (x : α) : Prop := ∃ p, b.MemAt p x

/-- No queue is empty and no queue holds an element twice. -/
structure WF (b : PrioBuckets κ α) : Prop where
  nonempty : ∀ (p : κ) (queue : List α), b[p]? = some queue → queue ≠ []
  nodup : ∀ (p : κ) (queue : List α), b[p]? = some queue → queue.Nodup

theorem not_memAt_empty (p : κ) (x : α) : ¬ MemAt (∅ : PrioBuckets κ α) p x := by
  rintro ⟨queue, h, _⟩
  simp at h

theorem WF.empty : WF (∅ : PrioBuckets κ α) where
  nonempty := by intro p queue h; simp at h
  nodup := by intro p queue h; simp at h

theorem WF.eq_empty [Std.LawfulEqOrd κ] {b : PrioBuckets κ α} (h : b.WF) (hnone : ∀ p x, ¬ b.MemAt p x) : b = ∅ := by
  refine Std.ExtTreeMap.eq_empty_of_getElem? fun p => ?_
  cases hq : b[p]? with
  | none => rfl
  | some queue =>
      obtain ⟨x, hx⟩ := List.exists_mem_of_ne_nil queue (h.nonempty p queue hq)
      exact (hnone p x ⟨queue, hq, hx⟩).elim

theorem nodup_keys (b : PrioBuckets κ α) : b.keys.Nodup := by
  refine b.distinct_keys.imp ?_
  intro p p' h he
  subst he
  exact h Std.ReflCmp.compare_self

/-! ## All elements -/

/-- The elements of all queues, in the order of the search. -/
def elems (b : PrioBuckets κ α) : List α := b.toList.flatMap Prod.snd

theorem mem_elems [Std.LawfulEqOrd κ] {b : PrioBuckets κ α} {x : α} : x ∈ b.elems ↔ b.Holds x := by
  simp only [elems, List.mem_flatMap, Prod.exists, Std.ExtTreeMap.mem_toList_iff_getElem?_eq_some]
  rfl

/-- Elements that stand in one queue only are listed once. -/
theorem WF.nodup_elems [Std.LawfulEqOrd κ] {b : PrioBuckets κ α} (h : b.WF)
    (hone : ∀ p p' x, b.MemAt p x → b.MemAt p' x → p = p') : b.elems.Nodup := by
  refine List.nodup_flatMap.mpr ⟨?_, ?_⟩
  · rintro ⟨p, queue⟩ he
    exact h.nodup p queue (Std.ExtTreeMap.mem_toList_iff_getElem?_eq_some.mp he)
  · refine b.distinct_keys_toList.imp_of_mem ?_
    rintro ⟨p, queue⟩ ⟨p', queue'⟩ he he' hne x hx hx'
    have hp : p = p' := hone p p' x ⟨queue, Std.ExtTreeMap.mem_toList_iff_getElem?_eq_some.mp he, hx⟩
      ⟨queue', Std.ExtTreeMap.mem_toList_iff_getElem?_eq_some.mp he', hx'⟩
    subst hp
    exact hne Std.ReflCmp.compare_self

/-! ## Operations -/

/-- The first answer of `f`, queue by queue. -/
def findFirst (b : PrioBuckets κ α) (f : α → Option β) : Option β :=
  b.toList.findSome? fun e => e.2.findSome? f

/-- The loop of `popFirst` over the priorities that are left. -/
def popLoop (pred : α → Bool) : List κ → PrioBuckets κ α → Option α × PrioBuckets κ α
  | [], b => (none, b)
  | p :: ps, b =>
      match b[p]? with
      | none => popLoop pred ps b
      | some queue =>
          match queue.findIdx? pred with
          | some i =>
              let rest := queue.eraseIdx i
              (queue[i]?, if rest.isEmpty then b.erase p else b.insert p rest)
          | none => popLoop pred ps (if queue.isEmpty then b.erase p else b)

/-- Pop the first element that satisfies `pred`. -/
def popFirst (b : PrioBuckets κ α) (pred : α → Bool) : Option α × PrioBuckets κ α :=
  popLoop pred b.keys b

/-! ## Searching -/

/-- The first element, by priority and then by position, that satisfies `pred`, with its priority. -/
def firstWhere (b : PrioBuckets κ α) (pred : α → Bool) : Option (κ × α) :=
  b.toList.findSome? fun e => (e.2.find? pred).map (e.1, ·)

theorem findFirst_eq (b : PrioBuckets κ α) (f : α → Option β) :
    b.findFirst f = (b.firstWhere fun x => (f x).isSome).bind fun e => f e.2 := by
  have hqueue : ∀ queue : List α,
      queue.findSome? f = (queue.find? fun x => (f x).isSome).bind f := by
    intro queue
    induction queue with
    | nil => rfl
    | cons x queue ih =>
        rw [List.findSome?_cons, List.find?_cons]
        cases hx : f x with
        | none => simpa using ih
        | some y => simp [hx]
  unfold findFirst firstWhere
  induction b.toList with
  | nil => rfl
  | cons e l ih =>
      rw [List.findSome?_cons, List.findSome?_cons, hqueue]
      cases hfind : e.2.find? fun x => (f x).isSome with
      | none => simpa using ih
      | some x =>
          obtain ⟨y, hy⟩ := Option.isSome_iff_exists.mp (show (f x).isSome = true from List.find?_some (p := fun x => (f x).isSome) hfind)
          simp [hy]

/-- The priority of the first queue with such an element. -/
theorem findSome?_any_eq (b : PrioBuckets κ α) (pred : α → Bool) :
    (b.toList.findSome? fun e => if e.2.any pred then some e.1 else none) = (b.firstWhere pred).map Prod.fst := by
  unfold firstWhere
  induction b.toList with
  | nil => rfl
  | cons e l ih =>
      rw [List.findSome?_cons, List.findSome?_cons, ← List.isSome_find?]
      cases e.2.find? pred with
      | none => exact ih
      | some x => rfl

section

variable [Std.LawfulEqOrd κ]

theorem firstWhere_eq_none_iff {b : PrioBuckets κ α} {pred : α → Bool} :
    b.firstWhere pred = none ↔ ∀ p x, b.MemAt p x → pred x = false := by
  simp only [firstWhere, List.findSome?_eq_none_iff, Option.map_eq_none_iff, List.find?_eq_none,
    Bool.not_eq_true]
  constructor
  · rintro h p x ⟨queue, hq, hx⟩
    exact h (p, queue) (Std.ExtTreeMap.mem_toList_iff_getElem?_eq_some.mpr hq) x hx
  · rintro h ⟨p, queue⟩ he x hx
    exact h p x ⟨queue, Std.ExtTreeMap.mem_toList_iff_getElem?_eq_some.mp he, hx⟩

/-- The found element is the first of its queue that satisfies `pred`. -/
theorem firstWhere_queue {b : PrioBuckets κ α} {pred : α → Bool} {p : κ} {x : α}
    (h : b.firstWhere pred = some (p, x)) : ∃ queue, b[p]? = some queue ∧ queue.find? pred = some x := by
  obtain ⟨l₁, ⟨p', queue⟩, l₂, hl, hfind, _⟩ := List.findSome?_eq_some_iff.mp h
  obtain ⟨y, hy, he⟩ := Option.map_eq_some_iff.mp hfind
  cases he
  refine ⟨queue, Std.ExtTreeMap.mem_toList_iff_getElem?_eq_some.mp ?_, hy⟩
  rw [hl]
  simp

theorem firstWhere_memAt {b : PrioBuckets κ α} {pred : α → Bool} {p : κ} {x : α}
    (h : b.firstWhere pred = some (p, x)) : b.MemAt p x ∧ pred x = true := by
  obtain ⟨queue, hq, hx⟩ := firstWhere_queue h
  exact ⟨⟨queue, hq, List.mem_of_find?_eq_some hx⟩, List.find?_some hx⟩

/-- No element that satisfies `pred` stands at a smaller priority. -/
theorem firstWhere_min {b : PrioBuckets κ α} {pred : α → Bool} {p p' : κ} {x y : α}
    (h : b.firstWhere pred = some (p, x)) (hy : b.MemAt p' y) (hpred : pred y = true) :
    p' = p ∨ compare p p' = .lt := by
  obtain ⟨l₁, ⟨p₀, queue⟩, l₂, hl, hfind, hnone⟩ := List.findSome?_eq_some_iff.mp h
  obtain ⟨z, hz, he⟩ := Option.map_eq_some_iff.mp hfind
  cases he
  obtain ⟨queue', hq', hy'⟩ := hy
  have hmem : (p', queue') ∈ l₁ ++ (p₀, queue) :: l₂ := by
    rw [← hl]
    exact Std.ExtTreeMap.mem_toList_iff_getElem?_eq_some.mpr hq'
  have hsorted := b.ordered_keys_toList
  rw [hl] at hsorted
  rcases List.mem_append.mp hmem with h₁ | h₂
  · have hno := hnone _ h₁
    rw [Option.map_eq_none_iff, List.find?_eq_none] at hno
    exact (hno y hy' hpred).elim
  · rcases List.mem_cons.mp h₂ with he | h₂
    · cases he
      exact Or.inl rfl
    · exact Or.inr (List.rel_of_pairwise_cons (List.pairwise_append.mp hsorted).2.1 h₂)

end

/-! ## Order -/

/-- In every queue, the elements that satisfy `keep` stand in the order of a list. -/
def Follows (keep : α → Bool) (order : List α) (b : PrioBuckets κ α) : Prop :=
  ∀ (p : κ) (queue : List α), b[p]? = some queue → (queue.filter keep).Sublist order

namespace Follows

variable {keep keep' : α → Bool} {order order' : List α} {b : PrioBuckets κ α} {p : κ} {x y : α}

theorem empty : Follows keep order (∅ : PrioBuckets κ α) := by
  intro p queue hq
  simp at hq

theorem mono (h : Follows keep order b) (hkeep : ∀ x, keep' x = true → keep x = true)
    (horder : order.Sublist order') : Follows keep' order' b := by
  intro p queue hq
  exact ((List.monotone_filter_right queue hkeep).trans (h p queue hq)).trans horder

/-- What stands before in a queue comes before in the order. -/
theorem pair_sublist (h : Follows keep order b) {before after : List α} (hq : b[p]? = some (before ++ x :: after))
    (hy : y ∈ after) (hkx : keep x = true) (hky : keep y = true) : [x, y].Sublist order := by
  have hpair : [x, y].Sublist (before ++ x :: after) :=
    ((List.singleton_sublist.mpr hy).cons_cons x).trans (List.sublist_append_right before (x :: after))
  have hkept := hpair.filter keep
  rw [List.filter_eq_self.mpr (by simp [hkx, hky])] at hkept
  exact hkept.trans (h p _ hq)

end Follows

/-- Two elements of a list without repetition stand in one order only. -/
theorem not_sublist_swap {l : List α} {x y : α} (hnd : l.Nodup) (h : [x, y].Sublist l) : ¬ [y, x].Sublist l := by
  induction l with
  | nil => cases h
  | cons z l ih =>
      obtain ⟨hz, hnd⟩ := List.nodup_cons.mp hnd
      intro h'
      cases h with
      | cons _ h =>
          cases h' with
          | cons _ h' => exact ih hnd h h'
          | cons_cons _ _ => exact hz (h.subset (by simp))
      | cons_cons _ h =>
          cases h' with
          | cons _ h' => exact hz (h'.subset (by simp))
          | cons_cons _ _ => exact hz (h.subset (by simp))

/-! ## Inserting and deleting -/

variable [DecidableEq α]

/-- Append an element to the queue of a priority, unless that queue holds it already. -/
def push (b : PrioBuckets κ α) (p : κ) (x : α) : PrioBuckets κ α :=
  let queue := b[p]?.getD []
  b.insert p (if x ∈ queue then queue else queue ++ [x])

/-- Take an element out of one queue, and drop the queue if it is empty afterwards. -/
def dropAt (x : α) (b : PrioBuckets κ α) (p : κ) : PrioBuckets κ α :=
  match b[p]? with
  | some queue => if (queue.erase x).isEmpty then b.erase p else b.insert p (queue.erase x)
  | none => b

/-- Take an element out of every queue. -/
def remove (b : PrioBuckets κ α) (x : α) : PrioBuckets κ α :=
  b.keys.foldl (dropAt x) b

/-- What is left of a queue without one element. -/
def trim (x : α) (queue : List α) : Option (List α) :=
  if (queue.erase x).isEmpty then none else some (queue.erase x)

theorem mem_trim {x y : α} {queue : List α} (hnd : queue.Nodup) :
    (∃ q, trim x queue = some q ∧ y ∈ q) ↔ y ∈ queue ∧ y ≠ x := by
  unfold trim
  have hmem : y ∈ queue.erase x ↔ y ≠ x ∧ y ∈ queue := hnd.mem_erase_iff
  split
  · rename_i he
    rw [List.isEmpty_iff] at he
    rw [he] at hmem
    simp only [List.not_mem_nil, false_iff] at hmem
    constructor
    · rintro ⟨q, hq, _⟩; cases hq
    · rintro ⟨hy, hne⟩; exact (hmem ⟨hne, hy⟩).elim
  · simp only [Option.some.injEq, exists_eq_left']
    rw [hmem]
    exact and_comm

theorem trim_eq_some {x : α} {queue rest : List α} (h : trim x queue = some rest) :
    rest ≠ [] ∧ rest = queue.erase x := by
  unfold trim at h
  split at h
  · cases h
  · rename_i hne
    cases h
    exact ⟨by simpa using hne, rfl⟩

/-- Trimming some of the queues keeps the buckets well-formed. -/
theorem WF.of_trim {b b' : PrioBuckets κ α} (h : b.WF) (x : α)
    (htrim : ∀ p : κ, b'[p]? = b[p]?.bind (trim x) ∨ b'[p]? = b[p]?) : b'.WF where
  nonempty := by
    intro p queue hq
    rcases htrim p with ht | ht
    · obtain ⟨q, _, hrest⟩ := Option.bind_eq_some_iff.mp (ht.symm.trans hq)
      exact (trim_eq_some hrest).1
    · exact h.nonempty p queue (ht.symm.trans hq)
  nodup := by
    intro p queue hq
    rcases htrim p with ht | ht
    · obtain ⟨q, hb, hrest⟩ := Option.bind_eq_some_iff.mp (ht.symm.trans hq)
      rw [(trim_eq_some hrest).2]
      exact (h.nodup p q hb).erase x
    · exact h.nodup p queue (ht.symm.trans hq)

/-- Trimming some of the queues keeps their order. -/
theorem Follows.of_trim {keep : α → Bool} {order : List α} {b b' : PrioBuckets κ α} {x : α} (h : Follows keep order b)
    (htrim : ∀ p : κ, b'[p]? = b[p]?.bind (trim x) ∨ b'[p]? = b[p]?) : Follows keep order b' := by
  intro p queue hq
  rcases htrim p with ht | ht
  · obtain ⟨q, hb, hrest⟩ := Option.bind_eq_some_iff.mp (ht.symm.trans hq)
    rw [(trim_eq_some hrest).2]
    exact (List.erase_sublist.filter keep).trans (h p q hb)
  · exact h p queue (ht.symm.trans hq)

theorem popLoop_eq {b : PrioBuckets κ α} (h : b.WF) (pred : α → Bool) (l : List (κ × List α))
    (hl : ∀ e ∈ l, b[e.1]? = some e.2) :
    popLoop pred (l.map Prod.fst) b =
      match l.findSome? fun e => (e.2.find? pred).map (e.1, ·) with
      | none => (none, b)
      | some (p, x) => (some x, dropAt x b p) := by
  -- No bucket is empty, so the scan leaves the map alone until it finds its element.
  induction l with
  | nil => rfl
  | cons e l ih =>
      obtain ⟨p, queue⟩ := e
      have hq : b[p]? = some queue := hl (p, queue) (by simp)
      have hrest := ih (fun e he => hl e (by simp [he]))
      rw [List.map_cons, List.findSome?_cons]
      simp only [popLoop, hq]
      cases hi : queue.findIdx? pred with
      | none =>
          have hnone : queue.find? pred = none := by
            rw [List.find?_eq_none]
            intro x hx
            simp [List.findIdx?_eq_none_iff.mp hi x hx]
          have hne : queue.isEmpty = false := by
            simpa using h.nonempty p queue hq
          simpa [hnone, hne] using hrest
      | some i =>
          obtain ⟨hlt, hpred, hbefore⟩ := List.findIdx?_eq_some_iff_getElem.mp hi
          have hfind : queue.find? pred = some queue[i] := by
            rw [List.find?_eq_some_iff_getElem]
            exact ⟨hpred, i, hlt, rfl, fun j hj => by simpa using hbefore j hj⟩
          have herase := (h.nodup p queue hq).erase_getElem i hlt
          simp only [hfind, Option.map_some, dropAt, hq, herase, List.getElem?_eq_getElem hlt]

variable [Std.LawfulEqOrd κ]

/-! ## Pushing -/

theorem getElem?_push_self (b : PrioBuckets κ α) (p : κ) (x : α) :
    (b.push p x)[p]? = some (if x ∈ b[p]?.getD [] then b[p]?.getD [] else b[p]?.getD [] ++ [x]) := by
  simp [push]

theorem getElem?_push_of_ne {b : PrioBuckets κ α} {p p' : κ} {x : α} (h : p ≠ p') :
    (b.push p x)[p']? = b[p']? := by
  simp [push, Std.ExtTreeMap.getElem?_insert, h]

theorem memAt_push {b : PrioBuckets κ α} {p p' : κ} {x y : α} :
    (b.push p x).MemAt p' y ↔ b.MemAt p' y ∨ (p' = p ∧ y = x) := by
  unfold MemAt
  by_cases hp : p = p'
  · subst hp
    rw [getElem?_push_self]
    cases hq : b[p]? with
    | none => simp
    | some queue =>
        by_cases hx : x ∈ queue
        · simp only [Option.getD_some, hx, ↓reduceIte, Option.some.injEq, exists_eq_left', true_and]
          exact ⟨Or.inl, fun h => h.elim id (fun h => h ▸ hx)⟩
        · simp [hx]
  · rw [getElem?_push_of_ne hp]
    simp [Ne.symm hp]

theorem WF.push {b : PrioBuckets κ α} (h : b.WF) (p : κ) (x : α) : (b.push p x).WF where
  nonempty := by
    intro p' queue hq
    by_cases hp : p = p'
    · subst hp
      rw [getElem?_push_self] at hq
      cases hq
      split
      · rename_i hx
        exact List.ne_nil_of_mem hx
      · simp
    · rw [getElem?_push_of_ne hp] at hq
      exact h.nonempty p' queue hq
  nodup := by
    intro p' queue hq
    by_cases hp : p = p'
    · subst hp
      rw [getElem?_push_self] at hq
      cases hq
      have hnd : (b[p]?.getD []).Nodup := by
        cases hb : b[p]? with
        | none => exact List.nodup_nil
        | some q => exact h.nodup p q hb
      split
      · exact hnd
      · rename_i hx
        exact List.nodup_append'.mpr ⟨hnd, List.nodup_singleton x, by simpa using hx⟩
    · rw [getElem?_push_of_ne hp] at hq
      exact h.nodup p' queue hq

/-! ## Removing -/

theorem getElem?_dropAt_self (b : PrioBuckets κ α) (p : κ) (x : α) :
    (dropAt x b p)[p]? = b[p]?.bind (trim x) := by
  unfold dropAt trim
  cases hq : b[p]? with
  | none => simp [hq]
  | some queue =>
      simp only [Option.bind_some]
      split <;> simp

theorem getElem?_dropAt_of_ne {b : PrioBuckets κ α} {p p' : κ} {x : α} (h : p ≠ p') :
    (dropAt x b p)[p']? = b[p']? := by
  unfold dropAt
  split
  · split <;> simp [Std.ExtTreeMap.getElem?_insert, Std.ExtTreeMap.getElem?_erase, h]
  · rfl

theorem getElem?_foldl_dropAt {x : α} {p : κ} (ps : List κ) (hnd : ps.Nodup) (b : PrioBuckets κ α) :
    (p ∈ ps → (ps.foldl (dropAt x) b)[p]? = b[p]?.bind (trim x)) ∧
      (p ∉ ps → (ps.foldl (dropAt x) b)[p]? = b[p]?) := by
  -- Each key is visited once, so a queue is trimmed at its own visit and kept by all others.
  induction ps generalizing b with
  | nil => exact ⟨nofun, fun _ => rfl⟩
  | cons p₀ ps ih =>
      obtain ⟨hp₀, hps⟩ := List.nodup_cons.mp hnd
      simp only [List.foldl_cons, List.mem_cons, not_or]
      refine ⟨?_, ?_⟩
      · intro hp
        by_cases he : p = p₀
        · subst he
          rw [(ih hps _).2 hp₀, getElem?_dropAt_self]
        · rw [(ih hps _).1 (hp.resolve_left he), getElem?_dropAt_of_ne (Ne.symm he)]
      · rintro ⟨hne, hp⟩
        rw [(ih hps _).2 hp, getElem?_dropAt_of_ne (Ne.symm hne)]

/-- One lookup after a removal. -/
theorem getElem?_remove (b : PrioBuckets κ α) (x : α) (p : κ) :
    (b.remove x)[p]? = b[p]?.bind (trim x) := by
  unfold remove
  by_cases hp : p ∈ b.keys
  · exact (getElem?_foldl_dropAt b.keys b.nodup_keys b).1 hp
  · rw [(getElem?_foldl_dropAt b.keys b.nodup_keys b).2 hp]
    have hnone : b[p]? = none := by
      rw [Std.ExtTreeMap.mem_keys] at hp
      exact Std.ExtTreeMap.getElem?_eq_none hp
    simp [hnone]

theorem memAt_remove {b : PrioBuckets κ α} (h : b.WF) {x y : α} {p : κ} :
    (b.remove x).MemAt p y ↔ b.MemAt p y ∧ y ≠ x := by
  unfold MemAt
  rw [getElem?_remove]
  cases hq : b[p]? with
  | none => simp
  | some queue =>
      simp only [Option.bind_some, Option.some.injEq, exists_eq_left']
      exact mem_trim (h.nodup p queue hq)

theorem WF.remove {b : PrioBuckets κ α} (h : b.WF) (x : α) : (b.remove x).WF :=
  h.of_trim x fun p => .inl (getElem?_remove b x p)

theorem WF.dropAt {b : PrioBuckets κ α} (h : b.WF) (x : α) (p : κ) : (dropAt x b p).WF := by
  refine h.of_trim x fun p' => ?_
  by_cases hp : p = p'
  · subst hp
    exact .inl (getElem?_dropAt_self b p x)
  · exact .inr (getElem?_dropAt_of_ne hp)

/-- Dropping an element keeps the others. -/
theorem memAt_dropAt_of_ne {b : PrioBuckets κ α} {x y : α} (hne : x ≠ y) {p p' : κ} (h : b.MemAt p' y) :
    (dropAt x b p).MemAt p' y := by
  obtain ⟨queue, hq, hy⟩ := h
  by_cases hp : p = p'
  · subst hp
    have hmem : y ∈ queue.erase x := (List.mem_erase_of_ne (Ne.symm hne)).mpr hy
    refine ⟨queue.erase x, ?_, hmem⟩
    rw [getElem?_dropAt_self, hq, Option.bind_some, trim, if_neg]
    simpa using List.ne_nil_of_mem hmem
  · exact ⟨queue, (getElem?_dropAt_of_ne hp).trans hq, hy⟩

/-- An element that stands in one queue only is removed by dropping it there. -/
theorem dropAt_eq_remove {b : PrioBuckets κ α} (h : b.WF) {x : α} {p : κ}
    (honly : ∀ p', b.MemAt p' x → p' = p) : dropAt x b p = b.remove x := by
  apply Std.ExtTreeMap.ext_getElem?
  intro p'
  rw [getElem?_remove]
  by_cases hp : p = p'
  · subst hp
    exact getElem?_dropAt_self b p x
  · rw [getElem?_dropAt_of_ne hp]
    cases hq : b[p']? with
    | none => rfl
    | some queue =>
        have hx : x ∉ queue := fun hx => hp (honly p' ⟨queue, hq, hx⟩).symm
        simp [trim, List.erase_of_not_mem hx, h.nonempty p' queue hq]

theorem remove_eq_self {b : PrioBuckets κ α} (h : b.WF) {x : α} (hx : ∀ p, ¬ b.MemAt p x) : b.remove x = b := by
  apply Std.ExtTreeMap.ext_getElem?
  intro p
  rw [getElem?_remove]
  cases hq : b[p]? with
  | none => rfl
  | some queue =>
      have hnot : x ∉ queue := fun hmem => hx p ⟨queue, hq, hmem⟩
      simp [trim, List.erase_of_not_mem hnot, h.nonempty p queue hq]

/-- A new element leaves no trace when it is removed again. -/
theorem remove_push {b : PrioBuckets κ α} (h : b.WF) {x : α} (hx : ∀ p, ¬ b.MemAt p x) (p : κ) :
    (b.push p x).remove x = b := by
  apply Std.ExtTreeMap.ext_getElem?
  intro p'
  rw [getElem?_remove]
  by_cases hp : p = p'
  · subst hp
    rw [getElem?_push_self]
    cases hq : b[p]? with
    | none => simp [trim]
    | some queue =>
        have hnot : x ∉ queue := fun hmem => hx p ⟨queue, hq, hmem⟩
        simp [trim, hnot, List.erase_append_right, h.nonempty p queue hq]
  · rw [getElem?_push_of_ne hp, ← getElem?_remove, remove_eq_self h hx]

/-! ## Popping -/

/-- Popping takes the first element that satisfies `pred` out of its queue. -/
theorem popFirst_eq {b : PrioBuckets κ α} (h : b.WF) (pred : α → Bool) :
    b.popFirst pred =
      match b.firstWhere pred with
      | none => (none, b)
      | some (p, x) => (some x, dropAt x b p) := by
  unfold popFirst
  rw [← Std.ExtTreeMap.map_fst_toList_eq_keys]
  exact popLoop_eq h pred b.toList fun e he => Std.ExtTreeMap.mem_toList_iff_getElem?_eq_some.mp he

/-! ## Order after an operation -/

namespace Follows

variable {keep : α → Bool} {order : List α} {b : PrioBuckets κ α} {x : α}

theorem remove (h : Follows keep order b) (x : α) : Follows keep order (b.remove x) :=
  h.of_trim fun p => .inl (getElem?_remove b x p)

theorem dropAt (h : Follows keep order b) (x : α) (p : κ) : Follows keep order (PrioBuckets.dropAt x b p) := by
  apply h.of_trim (x := x)
  intro p'
  by_cases hp : p = p'
  · subst hp
    exact .inl (getElem?_dropAt_self b p x)
  · exact .inr (getElem?_dropAt_of_ne hp)

/-- An element that is pushed stands behind the others. -/
theorem push_last (h : Follows keep order b) (p : κ) (x : α) : Follows keep (order ++ [x]) (b.push p x) := by
  intro p' queue hq
  by_cases hp : p = p'
  · subst hp
    have hold : ((b[p]?.getD []).filter keep).Sublist order := by
      cases hb : b[p]? with
      | none => simp
      | some q => exact h p q hb
    rw [getElem?_push_self, Option.some.injEq] at hq
    subst hq
    split
    · exact hold.trans (List.sublist_append_left order [x])
    · rw [List.filter_append]
      exact hold.append List.filter_sublist
  · rw [getElem?_push_of_ne hp] at hq
    exact (h p' queue hq).trans (List.sublist_append_left order [x])

theorem push_of_not (h : Follows keep order b) (p : κ) (hx : keep x = false) : Follows keep order (b.push p x) := by
  intro p' queue hq
  by_cases hp : p = p'
  · subst hp
    have hold : ((b[p]?.getD []).filter keep).Sublist order := by
      cases hb : b[p]? with
      | none => simp
      | some q => exact h p q hb
    rw [getElem?_push_self, Option.some.injEq] at hq
    subst hq
    split
    · exact hold
    · simpa [List.filter_append, hx] using hold
  · rw [getElem?_push_of_ne hp] at hq
    exact h p' queue hq

/-- Without its last element the order needs no last element. -/
theorem remove_last (h : Follows keep (order ++ [x]) b) (hwf : b.WF) : Follows keep order (b.remove x) := by
  intro p queue hq
  rw [getElem?_remove] at hq
  obtain ⟨q, hb, hrest⟩ := Option.bind_eq_some_iff.mp hq
  have hnot : x ∉ q.erase x := (hwf.nodup p q hb).not_mem_erase
  have hsub : ((q.erase x).filter keep).Sublist (order ++ [x]) :=
    (List.erase_sublist.filter keep).trans (h p q hb)
  rw [(trim_eq_some hrest).2]
  calc (q.erase x).filter keep
    _ = ((q.erase x).filter keep).filter (· != x) := by
        refine (List.filter_eq_self.mpr fun y hy => ?_).symm
        refine bne_iff_ne.mpr fun he => hnot ?_
        have hmem := List.mem_of_mem_filter hy
        rwa [he] at hmem
    List.Sublist _ ((order ++ [x]).filter (· != x)) := hsub.filter _
    List.Sublist _ order := by simp

/-- An element may be filed anew if it is not looked at or if it comes last. -/
theorem requeue (h : Follows keep order b) (hwf : b.WF) (p : κ)
    (hx : keep x = false ∨ ∃ front, order = front ++ [x]) : Follows keep order ((b.remove x).push p x) := by
  rcases hx with hx | ⟨front, rfl⟩
  · exact (h.remove x).push_of_not p hx
  · exact (h.remove_last hwf).push_last p x

end Follows

end PrioBuckets
