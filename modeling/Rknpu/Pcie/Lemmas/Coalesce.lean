import Rknpu.Pcie.Lemmas.Allocations

/-!
# No two free slots side by side

When all requests are even, all slots are, so no slot is too short to be found by its neighbour. Then free slots are
always merged, and a gap between the ranges that clients hold is one slot.
-/

namespace Rknpu.Pcie

variable {slots xs ys before after : List Slot} {slot a b : Slot} {key result : RangeInclusive} {lo hi : Nat}

/-- Not both are free. -/
def Slot.Apart (a b : Slot) : Prop := ¬(a.state = .free ∧ b.state = .free)

def Slot.Even (slot : Slot) : Prop := 2 ∣ slot.key.start ∧ 2 ∣ slot.key.last + 1

structure Compact (slots : List Slot) : Prop where
  even : ∀ a ∈ slots, a.Even
  apart : slots.IsChain Slot.Apart

/-! ## Chains -/

/-- What ends with a free slot may end with any other. -/
theorem isChain_snoc_of_free (h : (xs ++ [a]).IsChain Slot.Apart) (ha : a.state = .free) (b : Slot) :
    (xs ++ [b]).IsChain Slot.Apart := by
  obtain ⟨hxs, _, hlink⟩ := List.isChain_append.mp h
  refine List.isChain_append.mpr ⟨hxs, .singleton b, ?_⟩
  intro x hx y _ hboth
  exact hlink x hx a rfl ⟨hboth.1, ha⟩

theorem isChain_cons_of_free (h : (a :: ys).IsChain Slot.Apart) (ha : a.state = .free) (b : Slot) :
    (b :: ys).IsChain Slot.Apart := by
  cases ys with
  | nil => exact .singleton b
  | cons y ys =>
      obtain ⟨hlink, hys⟩ := List.isChain_cons_cons.mp h
      exact .cons_cons (fun hboth => hlink ⟨ha, hboth.2⟩) hys

theorem isChain_snoc_of_allocated (h : xs.IsChain Slot.Apart) (hb : b.state = .allocated) :
    (xs ++ [b]).IsChain Slot.Apart := by
  refine List.isChain_append.mpr ⟨h, .singleton b, ?_⟩
  rintro x _ _ ⟨⟩ ⟨_, hfree⟩
  rw [hb] at hfree
  cases hfree

theorem isChain_cons_of_allocated (h : ys.IsChain Slot.Apart) (hb : b.state = .allocated) :
    (b :: ys).IsChain Slot.Apart := by
  cases ys with
  | nil => exact .singleton b
  | cons y ys =>
      refine .cons_cons ?_ h
      rintro ⟨hfree, _⟩
      rw [hb] at hfree
      cases hfree

theorem Leftover.even (h : Leftover lo hi slots) (hlo : 2 ∣ lo) (hhi : 2 ∣ hi) : ∀ a ∈ slots, a.Even := by
  obtain ⟨htiling, _, hlen⟩ := h
  rcases slots with - | ⟨a, - | ⟨b, rest⟩⟩
  · simp
  · simp only [tiling_cons, tiling_nil] at htiling
    simp only [List.mem_singleton, forall_eq, Slot.Even, htiling.1, htiling.2]
    exact ⟨hlo, hhi⟩
  · simp at hlen

/-! ## Operations -/

theorem Carved.compact (h : Carved slot result before after) (hfree : slot.state = .free) (hbefore : Compact before)
    (hstart : 2 ∣ result.start) (hlast : 2 ∣ result.last + 1) : Compact after := by
  obtain ⟨heven, hapart⟩ := hbefore
  cases h with
  | intro hpre hpost =>
      rename_i xs ys pre post
      obtain ⟨hslotStart, hslotLast⟩ := heven slot (by simp)
      have hpreEven := hpre.even hslotStart hstart
      have hpostEven := hpost.even hlast hslotLast
      refine ⟨?_, ?_⟩
      · intro b hb
        simp only [List.mem_append, List.mem_cons] at hb
        rcases hb with (hx | hp | rfl | hq) | hy
        · exact heven b (by simp [hx])
        · exact hpreEven b hp
        · exact ⟨hstart, hlast⟩
        · exact hpostEven b hq
        · exact heven b (by simp [hy])
      · obtain ⟨hleft, hright⟩ := List.isChain_split.mp hapart
        have hleft' : (xs ++ pre).IsChain Slot.Apart := by
          have hlen := hpre.length_le
          rcases pre with - | ⟨p, - | ⟨q, rest⟩⟩
          · rw [List.append_nil]
            exact hleft.left_of_append
          · exact isChain_snoc_of_free hleft hfree p
          · simp at hlen
        have hright' : (post ++ ys).IsChain Slot.Apart := by
          have hlen := hpost.length_le
          rcases post with - | ⟨p, - | ⟨q, rest⟩⟩
          · exact hright.tail
          · exact isChain_cons_of_free hright hfree p
          · simp at hlen
        rw [show xs ++ (pre ++ ⟨result, .allocated⟩ :: post) ++ ys = xs ++ pre ++ ⟨result, .allocated⟩ :: (post ++ ys) by
          simp]
        exact List.isChain_split.mpr
          ⟨isChain_snoc_of_allocated hleft' rfl, isChain_cons_of_allocated hright' rfl⟩

/-- An even slot is longer than one address. -/
theorem Slot.Even.len_ne_one (h : slot.Even) : slot.key.len ≠ 1 := by
  have hle := slot.key.le
  obtain ⟨hstart, hlast⟩ := h
  simp only [RangeInclusive.len]
  omega

theorem Merged.compact (h : Merged slot before after) (hcompact : Compact before) : Compact after := by
  obtain ⟨heven, hapart⟩ := hcompact
  cases h with
  | intro hleft hright hbefore hafter =>
      rename_i xs ys left right range
      obtain ⟨hslotStart, hslotLast⟩ := heven slot (by simp)
      obtain ⟨hbeforeSlot, hafterSlot⟩ := List.isChain_split.mp hapart
      have hxs : (xs ++ [(⟨range, .free⟩ : Slot)]).IsChain Slot.Apart ∧ 2 ∣ range.start := by
        have hlen := hleft.length_le
        have htiling := hleft.tiling
        rcases left with - | ⟨l, - | ⟨m, rest⟩⟩
        · rw [List.append_nil] at hbeforeSlot
          rw [tiling_nil] at htiling
          refine ⟨List.isChain_append.mpr ⟨hbeforeSlot.left_of_append, .singleton _, ?_⟩, htiling ▸ hslotStart⟩
          intro x hx y _ hboth
          exact (heven x (by simp [List.mem_of_getLast? hx])).len_ne_one (hbefore rfl x hx hboth.1)
        · rw [tiling_cons] at htiling
          refine ⟨isChain_snoc_of_free hbeforeSlot.left_of_append (hleft.free l (by simp)) _, ?_⟩
          exact htiling.1 ▸ (heven l (by simp)).1
        · simp at hlen
      have hys : ((⟨range, .free⟩ : Slot) :: ys).IsChain Slot.Apart ∧ 2 ∣ range.last + 1 := by
        have hlen := hright.length_le
        have htiling := hright.tiling
        rcases right with - | ⟨r, - | ⟨m, rest⟩⟩
        · rw [tiling_nil] at htiling
          refine ⟨?_, htiling ▸ hslotLast⟩
          cases ys with
          | nil => exact .singleton _
          | cons y ys =>
              refine .cons_cons (fun hboth => ?_) hafterSlot.tail
              exact (heven y (by simp)).len_ne_one (hafter rfl y rfl hboth.2)
        · simp only [tiling_cons, tiling_nil] at htiling
          refine ⟨isChain_cons_of_free hafterSlot.tail (hright.free r (by simp)) _, ?_⟩
          exact htiling.2 ▸ (heven r (by simp)).2
        · simp at hlen
      refine ⟨?_, List.isChain_split.mpr ⟨hxs.1, hys.1⟩⟩
      intro b hb
      simp only [List.mem_append, List.mem_cons] at hb
      rcases hb with hx | rfl | hy
      · exact heven b (by simp [hx])
      · exact ⟨hxs.2, hys.2⟩
      · exact heven b (by simp [hy])

/-! ## Gaps -/

/-- A part of the window that meets no allocated slot lies in one free slot. -/
theorem exists_free_slot (htiling : Tiling lo slots hi) (hapart : slots.IsChain Slot.Apart) {first stop : Nat}
    (hlo : lo ≤ first) (hlt : first < stop) (hhi : stop ≤ hi)
    (hgap : ∀ a ∈ slots, a.state = .allocated → a.key.last < first ∨ stop ≤ a.key.start) :
    ∃ a ∈ slots, a.state = .free ∧ a.key.start ≤ first ∧ stop ≤ a.key.last + 1 := by
  induction slots generalizing lo with
  | nil =>
      rw [tiling_nil] at htiling
      omega
  | cons a slots ih =>
      obtain ⟨hstart, hrest⟩ := tiling_cons.mp htiling
      have hle := a.key.le
      by_cases hin : a.key.last < first
      · obtain ⟨b, hb, hfree⟩ := ih hrest hapart.tail (by omega) fun b hb => hgap b (List.mem_cons_of_mem a hb)
        exact ⟨b, List.mem_cons_of_mem a hb, hfree⟩
      · have hfree : a.state = .free := by
          cases hstate : a.state with
          | free => rfl
          | allocated =>
              have := hgap a List.mem_cons_self hstate
              omega
        refine ⟨a, List.mem_cons_self, hfree, by omega, ?_⟩
        by_contra hend
        -- the slot after it would be free as well
        cases slots with
        | nil =>
            rw [tiling_nil] at hrest
            omega
        | cons b slots =>
            obtain ⟨hnext, _⟩ := tiling_cons.mp hrest
            have hble := b.key.le
            cases hstate : b.state with
            | free => exact (List.isChain_cons_cons.mp hapart).1 ⟨hfree, hstate⟩
            | allocated =>
                have := hgap b (by simp) hstate
                omega

/-! ## Runs -/

/-- The request is even, and no exact match. -/
def AllocAct.Even : AllocAct → Prop
  | .allocate _ _ (.exactMatch _) => False
  | .allocate size alignment _ => 2 ∣ size.toNat ∧ 2 ∣ alignment.toNat
  | .free _ => True

instance AllocAct.decidableEven : (act : AllocAct) → Decidable act.Even
  | .allocate _ _ (.exactMatch _) => isFalse id
  | .allocate size alignment .firstMatch => inferInstanceAs (Decidable (2 ∣ size.toNat ∧ 2 ∣ alignment.toNat))
  | .allocate size alignment .lastMatch => inferInstanceAs (Decidable (2 ∣ size.toNat ∧ 2 ∣ alignment.toNat))
  | .free _ => isTrue trivial

variable {s s' : Client} {act : AllocAct} {space : RangeInclusive} {n : Nat}

theorem AllocAct.Even.sound (h : act.Even) (hcompact : Compact s.allocator.tree.toList) : act.Sound s := by
  cases act with
  | allocate size alignment policy =>
      cases policy with
      | firstMatch => trivial
      | lastMatch => trivial
      | exactMatch start => exact h.elim
  | free key =>
      rintro slot hmem rfl
      obtain ⟨hstart, hlast⟩ := hcompact.even slot hmem
      omega

theorem Compact.step (hcompact : Compact s.allocator.tree.toList) (h : Ledger space n s) (hn : n ≤ maxActions)
    (heven : act.Even) (hstep : s.step act = some s') : Compact s'.allocator.tree.toList := by
  rcases h.step_cases hn (heven.sound hcompact) with hs | ⟨size, alignment, policy, slot, result, t', rfl, hs, hfits, hlast,
    _, hcarved⟩ | ⟨slot, t', _, _, hs, _, hmerged⟩
  · obtain rfl := Option.some.inj (hs.symm.trans hstep)
    exact hcompact
  · obtain rfl := Option.some.inj (hs.symm.trans hstep)
    have hboth : 2 ∣ size.toNat ∧ 2 ∣ alignment.toNat := by
      cases policy with
      | firstMatch => exact heven
      | lastMatch => exact heven
      | exactMatch start => exact heven.elim
    have hstart : 2 ∣ result.start := hboth.2.trans hfits.aligned
    refine hcarved.compact hfits.free hcompact hstart ?_
    rw [hlast]
    exact Nat.dvd_add hstart hboth.1
  · obtain rfl := Option.some.inj (hs.symm.trans hstep)
    exact hmerged.compact hcompact

theorem Compact.run {a : AddressAllocator} {base size : Nat} {acts : List AllocAct}
    (hnew : AddressAllocator.new base size = .ok a) (hbase : 2 ∣ base) (hsize : 2 ∣ size)
    (hrun : (allocations a).run acts = some s) (hlen : acts.length ≤ maxActions) (heven : ∀ act ∈ acts, act.Even) :
    Ledger a.addressSpace acts.length s ∧ Compact s.allocator.tree.toList := by
  refine Machine.run_induction (P := fun acts s => acts.length ≤ maxActions → (∀ act ∈ acts, act.Even) →
    Ledger a.addressSpace acts.length s ∧ Compact s.allocator.tree.toList) ?_ ?_ hrun hlen heven
  · intro _ _
    obtain ⟨hstart, hend, htree⟩ := AddressAllocator.new_eq_ok hnew
    have hslots : a.tree.toList = [⟨a.addressSpace, .free⟩] := by simp [htree]
    refine ⟨Ledger.init hnew, ?_, ?_⟩
    · simp only [allocations, hslots, List.mem_singleton, forall_eq, Slot.Even, hstart, hend]
      exact ⟨hbase, Nat.dvd_add hbase hsize⟩
    · simp [allocations, hslots]
  · intro acts s act s' _ ih hs hlen heven
    simp only [List.length_append, List.length_singleton] at hlen ⊢
    obtain ⟨hledger, hcompact⟩ := ih (by omega) fun act hact => heven act (by simp [hact])
    have hact := heven act (by simp)
    exact ⟨hledger.step (by omega) (hact.sound hcompact) hs, hcompact.step hledger (by omega) hact hs⟩

end Rknpu.Pcie
