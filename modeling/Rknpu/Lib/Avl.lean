import Mathlib

/-!
# Balanced trees with cached heights

Every node caches the height of its subtree. `rotate` repairs a node whose subtrees differ in height by two. A result
is `none` where the code would panic, which does not happen to balanced trees.
-/

inductive Avl (α : Type) where
  | nil
  | node (value : α) (left right : Avl α) (height : Nat)
deriving Repr

namespace Avl

variable {α : Type}

/-! ## Operations -/

/-- The cached height. -/
def height : Avl α → Nat
  | nil => 0
  | node _ _ _ h => h

/-- A node with its height brought up to date. -/
def join (a : α) (l r : Avl α) : Avl α := node a l r (max l.height r.height + 1)

/-- `none` without a right subtree. -/
def rotateLeft (a : α) (l : Avl α) : Avl α → Option (Avl α)
  | nil => none
  | node b rl rr _ => some (join b (join a l rl) rr)

def rotateRight (a : α) (l r : Avl α) : Option (Avl α) :=
  match l with
  | nil => none
  | node b ll lr _ => some (join b ll (join a lr r))

/-- The left subtree is too high. -/
def rotateLeftSuccessor (a : α) (l r : Avl α) : Option (Avl α) :=
  match l with
  | nil => none
  | node b ll lr h =>
      if ll.height < lr.height then rotateRight a ((rotateLeft b ll lr).getD nil) r else rotateRight a (node b ll lr h) r

/-- The right subtree is too high. -/
def rotateRightSuccessor (a : α) (l r : Avl α) : Option (Avl α) :=
  match r with
  | nil => none
  | node b rl rr h =>
      if rr.height < rl.height then rotateLeft a l ((rotateRight b rl rr).getD nil) else rotateLeft a l (node b rl rr h)

/-- `none` if the heights differ by more than two. -/
def rotate (a : α) (l r : Avl α) (h : Nat) : Option (Avl α) :=
  if l.height ≤ r.height + 1 ∧ r.height ≤ l.height + 1 then some (node a l r h)
  else if l.height = r.height + 2 then rotateLeftSuccessor a l r
  else if r.height = l.height + 2 then rotateRightSuccessor a l r
  else none

/-- Bring the height of a node up to date, then repair it. -/
def repair (a : α) (l r : Avl α) : Option (Avl α) := rotate a l r (max l.height r.height + 1)

/-- The least value of a node, and the tree without it. -/
def getNewRoot (a : α) (l r : Avl α) : Option (α × Avl α) :=
  match l with
  | nil => some (a, r)
  | node b ll lr _ => do
      let (least, l) ← getNewRoot b ll lr
      let t ← repair a l r
      some (least, t)

/-- One tree from `l` and the node with the value `b`. -/
def combineSubtrees (l : Avl α) (b : α) (rl rr : Avl α) : Option (Avl α) := do
  let (least, rest) ← getNewRoot b rl rr
  repair least l rest

/-- What is left of a node without its value. -/
def deleteRoot (l r : Avl α) : Option (Avl α) :=
  match l, r with
  | l, nil => some l
  | nil, r => some r
  | l, node b rl rr _ => combineSubtrees l b rl rr

/-! ## What a tree holds -/

/-- The values from left to right. -/
def toList : Avl α → List α
  | nil => []
  | node a l r _ => l.toList ++ a :: r.toList

def Balanced : Avl α → Prop
  | nil => True
  | node _ l r h =>
      l.Balanced ∧ r.Balanced ∧ h = max l.height r.height + 1 ∧ l.height ≤ r.height + 1 ∧ r.height ≤ l.height + 1

variable {a b : α} {l r t : Avl α} {h : Nat}

@[simp] theorem height_nil : (nil : Avl α).height = 0 := rfl

@[simp] theorem height_node : (node a l r h).height = h := rfl

@[simp] theorem height_join : (join a l r).height = max l.height r.height + 1 := rfl

@[simp] theorem toList_nil : (nil : Avl α).toList = [] := rfl

@[simp] theorem toList_node : (node a l r h).toList = l.toList ++ a :: r.toList := rfl

@[simp] theorem toList_join : (join a l r).toList = l.toList ++ a :: r.toList := rfl

@[simp] theorem balanced_nil : (nil : Avl α).Balanced := trivial

theorem balanced_node : (node a l r h).Balanced ↔ l.Balanced ∧ r.Balanced ∧ h = max l.height r.height + 1 ∧
    l.height ≤ r.height + 1 ∧ r.height ≤ l.height + 1 := Iff.rfl

theorem Balanced.join (hl : l.Balanced) (hr : r.Balanced) (hle : l.height ≤ r.height + 1)
    (hle' : r.height ≤ l.height + 1) : (join a l r).Balanced :=
  ⟨hl, hr, rfl, hle, hle'⟩

theorem Balanced.height_pos (hb : (node a l r h).Balanced) : 0 < h := by
  obtain ⟨-, -, hh, -, -⟩ := hb
  omega

/-! ## Rotations -/

/-- A tree in place of a node with the subtrees `l` and `r`. -/
structure Repaired (a : α) (l r t : Avl α) : Prop where
  balanced : t.Balanced
  toList : t.toList = l.toList ++ a :: r.toList
  le_height : max l.height r.height ≤ t.height
  height_le : t.height ≤ max l.height r.height + 1

theorem rotateLeftSuccessor_spec (hl : l.Balanced) (hr : r.Balanced) (hlr : l.height = r.height + 2) :
    ∃ t, rotateLeftSuccessor a l r = some t ∧ Repaired a l r t := by
  cases l with
  | nil => simp at hlr
  | node b ll lr hh =>
      obtain ⟨hll, hlr', hhh, hle, hle'⟩ := hl
      simp only [height_node] at hlr
      by_cases hheavy : ll.height < lr.height
      · cases lr with
        | nil => simp at hheavy
        | node c lrl lrr hh' =>
            obtain ⟨hlrl, hlrr, rfl, hin, hin'⟩ := hlr'
            simp only [height_node] at hhh hle hle' hheavy
            have heq : rotateLeftSuccessor a (node b ll (node c lrl lrr (max lrl.height lrr.height + 1)) hh) r =
                some (Avl.join c (Avl.join b ll lrl) (Avl.join a lrr r)) := if_pos hheavy
            refine ⟨_, heq, ?_, by simp, ?_, ?_⟩
            · refine Balanced.join (Balanced.join hll hlrl (by omega) (by omega))
                (Balanced.join hlrr hr (by omega) (by omega)) ?_ ?_ <;> simp only [height_join] <;> omega
            · simp only [height_node, height_join]
              omega
            · simp only [height_node, height_join]
              omega
      · have heq : rotateLeftSuccessor a (node b ll lr hh) r = some (Avl.join b ll (Avl.join a lr r)) := if_neg hheavy
        refine ⟨_, heq, ?_, by simp, ?_, ?_⟩
        · refine Balanced.join hll (Balanced.join hlr' hr (by omega) (by omega)) ?_ ?_ <;> simp only [height_join] <;> omega
        · simp only [height_node, height_join]
          omega
        · simp only [height_node, height_join]
          omega

theorem rotateRightSuccessor_spec (hl : l.Balanced) (hr : r.Balanced) (hlr : r.height = l.height + 2) :
    ∃ t, rotateRightSuccessor a l r = some t ∧ Repaired a l r t := by
  cases r with
  | nil => simp at hlr
  | node b rl rr hh =>
      obtain ⟨hrl, hrr, hhh, hle, hle'⟩ := hr
      simp only [height_node] at hlr
      by_cases hheavy : rr.height < rl.height
      · cases rl with
        | nil => simp at hheavy
        | node c rll rlr hh' =>
            obtain ⟨hrll, hrlr, rfl, hin, hin'⟩ := hrl
            simp only [height_node] at hhh hle hle' hheavy
            have heq : rotateRightSuccessor a l (node b (node c rll rlr (max rll.height rlr.height + 1)) rr hh) =
                some (Avl.join c (Avl.join a l rll) (Avl.join b rlr rr)) := if_pos hheavy
            refine ⟨_, heq, ?_, by simp, ?_, ?_⟩
            · refine Balanced.join (Balanced.join hl hrll (by omega) (by omega))
                (Balanced.join hrlr hrr (by omega) (by omega)) ?_ ?_ <;> simp only [height_join] <;> omega
            · simp only [height_node, height_join]
              omega
            · simp only [height_node, height_join]
              omega
      · have heq : rotateRightSuccessor a l (node b rl rr hh) = some (Avl.join b (Avl.join a l rl) rr) := if_neg hheavy
        refine ⟨_, heq, ?_, by simp, ?_, ?_⟩
        · refine Balanced.join (Balanced.join hl hrl (by omega) (by omega)) hrr ?_ ?_ <;> simp only [height_join] <;> omega
        · simp only [height_node, height_join]
          omega
        · simp only [height_node, height_join]
          omega

/-- Subtrees that differ by two at most are repaired. If they differ by one at most, nothing changes. -/
theorem repair_spec (a : α) (hl : l.Balanced) (hr : r.Balanced) (hle : l.height ≤ r.height + 2)
    (hle' : r.height ≤ l.height + 2) : ∃ t, repair a l r = some t ∧ Repaired a l r t ∧
      (l.height ≤ r.height + 1 → r.height ≤ l.height + 1 → t.height = max l.height r.height + 1) := by
  unfold repair rotate
  by_cases hnear : l.height ≤ r.height + 1 ∧ r.height ≤ l.height + 1
  · rw [if_pos hnear]
    exact ⟨_, rfl, ⟨Balanced.join hl hr hnear.1 hnear.2, rfl, Nat.le_succ _, Nat.le_refl _⟩, fun _ _ => rfl⟩
  · rw [if_neg hnear]
    by_cases hleft : l.height = r.height + 2
    · rw [if_pos hleft]
      obtain ⟨t, ht, hrep⟩ := rotateLeftSuccessor_spec (a := a) hl hr hleft
      exact ⟨t, ht, hrep, fun h1 h2 => absurd ⟨h1, h2⟩ hnear⟩
    · have hright : r.height = l.height + 2 := by omega
      rw [if_neg hleft, if_pos hright]
      obtain ⟨t, ht, hrep⟩ := rotateRightSuccessor_spec (a := a) hl hr hright
      exact ⟨t, ht, hrep, fun h1 h2 => absurd ⟨h1, h2⟩ hnear⟩

/-! ## A subtree grows or shrinks -/

/-- The left subtree has grown by one at most. -/
theorem repair_grow_left (hb : (node a l r h).Balanced) {l' : Avl α} (hl' : l'.Balanced)
    (hlow : l.height ≤ l'.height) (hhigh : l'.height ≤ l.height + 1) :
    ∃ t, repair a l' r = some t ∧ t.Balanced ∧ t.toList = l'.toList ++ a :: r.toList ∧
      h ≤ t.height ∧ t.height ≤ h + 1 := by
  obtain ⟨_, hr, hh, hle, hle'⟩ := hb
  obtain ⟨t, ht, hrep, hsame⟩ := repair_spec a hl' hr (by omega) (by omega)
  have hlow' := hrep.le_height
  have hhigh' := hrep.height_le
  exact ⟨t, ht, hrep.balanced, hrep.toList, by omega, by omega⟩

theorem repair_grow_right (hb : (node a l r h).Balanced) {r' : Avl α} (hr' : r'.Balanced)
    (hlow : r.height ≤ r'.height) (hhigh : r'.height ≤ r.height + 1) :
    ∃ t, repair a l r' = some t ∧ t.Balanced ∧ t.toList = l.toList ++ a :: r'.toList ∧
      h ≤ t.height ∧ t.height ≤ h + 1 := by
  obtain ⟨hl, _, hh, hle, hle'⟩ := hb
  obtain ⟨t, ht, hrep, hsame⟩ := repair_spec a hl hr' (by omega) (by omega)
  have hlow' := hrep.le_height
  have hhigh' := hrep.height_le
  exact ⟨t, ht, hrep.balanced, hrep.toList, by omega, by omega⟩

/-- The left subtree has shrunk by one at most. -/
theorem repair_shrink_left (hb : (node a l r h).Balanced) {l' : Avl α} (hl' : l'.Balanced)
    (hlow : l.height ≤ l'.height + 1) (hhigh : l'.height ≤ l.height) (a' : α) :
    ∃ t, repair a' l' r = some t ∧ t.Balanced ∧ t.toList = l'.toList ++ a' :: r.toList ∧
      h ≤ t.height + 1 ∧ t.height ≤ h := by
  obtain ⟨_, hr, hh, hle, hle'⟩ := hb
  obtain ⟨t, ht, hrep, hsame⟩ := repair_spec a' hl' hr (by omega) (by omega)
  have hlow' := hrep.le_height
  have hhigh' := hrep.height_le
  exact ⟨t, ht, hrep.balanced, hrep.toList, by omega, by omega⟩

theorem repair_shrink_right (hb : (node a l r h).Balanced) {r' : Avl α} (hr' : r'.Balanced)
    (hlow : r.height ≤ r'.height + 1) (hhigh : r'.height ≤ r.height) (a' : α) :
    ∃ t, repair a' l r' = some t ∧ t.Balanced ∧ t.toList = l.toList ++ a' :: r'.toList ∧
      h ≤ t.height + 1 ∧ t.height ≤ h := by
  obtain ⟨hl, _, hh, hle, hle'⟩ := hb
  obtain ⟨t, ht, hrep, hsame⟩ := repair_spec a' hl hr' (by omega) (by omega)
  have hlow' := hrep.le_height
  have hhigh' := hrep.height_le
  exact ⟨t, ht, hrep.balanced, hrep.toList, by omega, by omega⟩

/-! ## The root is deleted -/

theorem getNewRoot_spec (hb : (node a l r h).Balanced) :
    ∃ least rest, getNewRoot a l r = some (least, rest) ∧ rest.Balanced ∧
      l.toList ++ a :: r.toList = least :: rest.toList ∧ h ≤ rest.height + 1 ∧ rest.height ≤ h := by
  induction l generalizing a r h with
  | nil =>
      obtain ⟨_, hr, hh, _, _⟩ := hb
      refine ⟨a, r, by simp [getNewRoot], hr, rfl, ?_, ?_⟩ <;> simp only [height_nil] at hh <;> omega
  | node b ll lr hl ihl _ =>
      obtain ⟨least, rest, hget, hrest, hlist, hlow, hhigh⟩ := ihl hb.1
      obtain ⟨t, ht, htb, htl, htlow, hthigh⟩ := repair_shrink_left hb hrest hlow hhigh a
      refine ⟨least, t, by simp [getNewRoot, hget, ht], htb, ?_, htlow, hthigh⟩
      rw [htl, toList_node, hlist]
      rfl

theorem deleteRoot_spec (hb : (node a l r h).Balanced) :
    ∃ t, deleteRoot l r = some t ∧ t.Balanced ∧ t.toList = l.toList ++ r.toList ∧ h ≤ t.height + 1 ∧ t.height ≤ h := by
  cases r with
  | nil =>
      obtain ⟨hl, _, hh, _, hle'⟩ := hb
      refine ⟨l, by cases l <;> rfl, hl, by simp, ?_, ?_⟩ <;> simp only [height_nil] at hh hle' <;> omega
  | node b rl rr hr =>
      cases l with
      | nil =>
          obtain ⟨_, hr', hh, _, _⟩ := hb
          refine ⟨_, rfl, hr', by simp, ?_, ?_⟩ <;> simp only [height_nil, height_node] at hh ⊢ <;> omega
      | node c ll lr hl =>
          obtain ⟨least, rest, hget, hrest, hlist, hlow, hhigh⟩ := getNewRoot_spec hb.2.1
          obtain ⟨t, ht, htb, htl, htlow, hthigh⟩ := repair_shrink_right hb hrest hlow hhigh least
          refine ⟨t, by simp [deleteRoot, combineSubtrees, hget, ht], htb, ?_, htlow, hthigh⟩
          rw [htl, ← hlist]
          rfl

/-! ## How high a tree can be -/

/-- A balanced tree of a given height has at least as many values as the Fibonacci tree of that height. -/
theorem Balanced.fib_le_length (hb : t.Balanced) : Nat.fib (t.height + 2) ≤ t.toList.length + 1 := by
  induction t with
  | nil => exact Nat.le_refl 1
  | node a l r h ihl ihr =>
      obtain ⟨hl, hr, rfl, hle, hle'⟩ := hb
      have hlfib := ihl hl
      have hrfib := ihr hr
      simp only [height_node, toList_node, List.length_append, List.length_cons]
      rcases Nat.le_total l.height r.height with hlr | hlr
      · have hmono : Nat.fib (r.height + 1) ≤ Nat.fib (l.height + 2) := Nat.fib_mono (by omega)
        rw [max_eq_right hlr, Nat.fib_add_two]
        have hadd : Nat.fib (r.height + 1 + 1) = Nat.fib (r.height + 2) := rfl
        omega
      · have hmono : Nat.fib (l.height + 1) ≤ Nat.fib (r.height + 2) := Nat.fib_mono (by omega)
        rw [max_eq_left hlr, Nat.fib_add_two]
        have hadd : Nat.fib (l.height + 1 + 1) = Nat.fib (l.height + 2) := rfl
        omega

end Avl
