import Rknpu.Pcie.Lemmas.Coalesce

/-!
# The allocator over whole runs
-/

namespace Rknpu.Pcie

variable {a : AddressAllocator} {base size : Nat} {acts : List AllocAct} {s : Client} {length alignment : UInt64}
  {key : RangeInclusive}

/-! ## Disjointness -/

/-- What clients hold is disjoint and inside the window, and every address of the window is either held or free. -/
theorem live_ranges_disjoint (hnew : AddressAllocator.new base size = .ok a) (hrun : (allocations a).run acts = some s)
    (hlen : acts.length ≤ maxActions) (hsound : ∀ s act, (allocations a).Takes acts s act → act.Sound s) :
    (s.live.Pairwise fun r r' => r.overlaps r' = false) ∧ (∀ r ∈ s.live, base ≤ r.start ∧ r.last < base + size) ∧
      ∀ address, base ≤ address → address < base + size →
        ((∃ r ∈ s.live, r.start ≤ address ∧ address ≤ r.last) ↔
          ¬∃ slot ∈ s.allocator.tree.toList, slot.state = .free ∧ slot.key.start ≤ address ∧ address ≤ slot.key.last) := by
  have hledger := Ledger.run hnew hrun hlen hsound
  obtain ⟨hstart, hend, _⟩ := AddressAllocator.new_eq_ok hnew
  have htiling := hledger.tiling
  rw [hstart, hend] at htiling
  refine ⟨hledger.live_disjoint, ?_, ?_⟩
  · intro r hr
    exact htiling.mem_bounds (hledger.mem_live.mp hr)
  · intro address hlow hhigh
    constructor
    · rintro ⟨r, hr, hin⟩ ⟨slot, hslot, hfree, hin'⟩
      have hne : slot ≠ ⟨r, .allocated⟩ := by
        rintro rfl
        cases hfree
      rcases htiling.ordered.before_or_before hslot (hledger.mem_live.mp hr) hne with hbefore | hbefore <;>
        simp only [Slot.Before] at hbefore <;> omega
    · intro hnot
      obtain ⟨slot, hslot, hin⟩ := htiling.exists_mem_iff.mpr ⟨hlow, hhigh⟩
      refine ⟨slot.key, hledger.mem_live.mpr ?_, hin⟩
      cases hstate : slot.state with
      | free => exact absurd ⟨slot, hslot, hstate, hin⟩ hnot
      | allocated =>
          rw [← hstate]
          exact hslot

/-! ## First fit -/

/-- A request from the left gets the lowest address at which one free slot can serve it, and fails if there is none. It
also fails if that place ends with the address space. -/
theorem first_match_lowest (hnew : AddressAllocator.new base size = .ok a) (hrun : (allocations a).run acts = some s)
    (hlen : acts.length ≤ maxActions) (hsound : ∀ s act, (allocations a).Takes acts s act → act.Sound s)
    (hlength : length ≠ 0) (hpow : isPowerOfTwo alignment.toNat = true) :
    (∃ result, (s.allocator.allocate length.toNat alignment.toNat .firstMatch).1 = .ok result ∧
        result.last + 1 = result.start + length.toNat ∧
        IsLeast {a | s.Serves ⟨length.toNat, alignment.toNat, .firstMatch⟩ a} result.start) ∨
      s.allocator.allocate length.toNat alignment.toNat .firstMatch =
          (.error (.error .resourceNotAvailable), s.allocator) ∧
        (∀ a, ¬s.Serves ⟨length.toNat, alignment.toNat, .firstMatch⟩ a) ∨
      s.allocator.allocate length.toNat alignment.toNat .firstMatch = (.error (.error .overflow), s.allocator) ∧
        IsLeast {a | s.Serves ⟨length.toNat, alignment.toNat, .firstMatch⟩ a} (2 ^ 64 - length.toNat) :=
  (Ledger.run hnew hrun hlen hsound).allocate_first hlen hlength hpow

/-- When all requests are even, a request from the left fails only if every place in the window meets a range that a
client holds. -/
theorem first_match_complete (hnew : AddressAllocator.new base size = .ok a) (hbase : 2 ∣ base) (hsize : 2 ∣ size)
    (hrun : (allocations a).run acts = some s) (hlen : acts.length ≤ maxActions) (heven : ∀ act ∈ acts, act.Even)
    (hlength : length ≠ 0) (hpow : isPowerOfTwo alignment.toNat = true)
    (hfail : (s.allocator.allocate length.toNat alignment.toNat .firstMatch).1 = .error (.error .resourceNotAvailable)) :
    ∀ address, alignment.toNat ∣ address → base ≤ address → address + length.toNat ≤ base + size →
      ∃ r ∈ s.live, r.start < address + length.toNat ∧ address ≤ r.last := by
  obtain ⟨hledger, hcompact⟩ := Compact.run hnew hbase hsize hrun hlen heven
  obtain ⟨hstart, hend, _⟩ := AddressAllocator.new_eq_ok hnew
  have htiling := hledger.tiling
  rw [hstart, hend] at htiling
  have hpos : length.toNat ≠ 0 := fun he => hlength (UInt64.toNat_inj.mp he)
  intro address hdvd hlow hhigh
  by_contra hnone
  have hgap : ∀ slot ∈ s.allocator.tree.toList, slot.state = .allocated →
      slot.key.last < address ∨ address + length.toNat ≤ slot.key.start := by
    intro slot hslot hstate
    by_contra hmeets
    refine hnone ⟨slot.key, hledger.mem_live.mpr ?_, by omega, by omega⟩
    rw [← hstate]
    exact hslot
  -- the place would be part of one free slot, and the request would be served
  obtain ⟨slot, hslot, hfree, hle, hroom⟩ := exists_free_slot htiling hcompact.apart hlow (by omega) hhigh hgap
  have hserves : s.Serves ⟨length.toNat, alignment.toNat, .firstMatch⟩ address := ⟨slot, hslot, hfree, hle, hdvd, hroom⟩
  rcases hledger.allocate_first hlen hlength hpow with ⟨result, hok, _⟩ | ⟨_, hnothing⟩ | ⟨hoverflow, _⟩
  · rw [hok] at hfail
    cases hfail
  · exact hnothing address hserves
  · rw [hoverflow] at hfail
    cases hfail

/-! ## Giving back -/

/-- No operation panics. -/
theorem allocator_never_panics (hnew : AddressAllocator.new base size = .ok a) (hrun : (allocations a).run acts = some s)
    (hlen : acts.length ≤ maxActions) (hsound : ∀ s act, (allocations a).Takes acts s act → act.Sound s) {act : AllocAct}
    (hact : act.Sound s) : ∃ s', (allocations a).step s act = some s' := by
  rcases (Ledger.run hnew hrun hlen hsound).step_cases hlen hact with
    hs | ⟨_, _, _, _, _, _, _, hs, _⟩ | ⟨_, _, _, _, hs, _⟩
  · exact ⟨_, hs⟩
  · exact ⟨_, hs⟩
  · exact ⟨_, hs⟩

/-- What a client holds it can give back, and then it is part of a free slot. -/
theorem live_range_freed (hnew : AddressAllocator.new base size = .ok a) (hrun : (allocations a).run acts = some s)
    (hlen : acts.length ≤ maxActions) (hsound : ∀ s act, (allocations a).Takes acts s act → act.Sound s)
    (hkey : key ∈ s.live) (hone : key.start ≠ 1) (htwo : key.last ≠ 2 ^ 64 - 2) :
    ∃ s', (allocations a).step s (.free key) = some s' ∧ (s.allocator.free key).1 = .ok () ∧ key ∉ s'.live ∧
      ∃ slot ∈ s'.allocator.tree.toList, slot.state = .free ∧ slot.key.start ≤ key.start ∧ key.last ≤ slot.key.last := by
  have hledger := Ledger.run hnew hrun hlen hsound
  have hslot := hledger.mem_live.mp hkey
  rcases hledger.free_cases hlen (fun _ _ _ => ⟨hone, htwo⟩) with ⟨habsent, _⟩ | ⟨slot, hmem, rfl, t', hfree, hb, hmerged⟩
  · exact absurd rfl (habsent _ hslot)
  · refine ⟨⟨{ s.allocator with tree := t' }, s.live.erase slot.key⟩, ?_, by rw [hfree], ?_, ?_⟩
    · simp [allocations, Client.step, hfree]
    · exact hledger.live_nodup.not_mem_erase
    · exact hmerged.exists_free

/-- A range that starts at 1, or ends one below the last address, is not given back: the call fails, and no slot, free or
not, has its addresses any more. -/
theorem edge_range_lost (hnew : AddressAllocator.new base size = .ok a) (hrun : (allocations a).run acts = some s)
    (hlen : acts.length ≤ maxActions) (hsound : ∀ s act, (allocations a).Takes acts s act → act.Sound s)
    (hkey : key ∈ s.live) (hedge : key.start = 1 ∨ key.last = 2 ^ 64 - 2) :
    ∃ e a', s.allocator.free key = (.error (.error e), a') ∧ ∀ slot ∈ a'.tree.toList, slot.key.overlaps key = false := by
  have hledger := Ledger.run hnew hrun hlen hsound
  obtain ⟨xs, ys, hlist⟩ := List.append_of_mem (hledger.mem_live.mp hkey)
  obtain ⟨t₁, hdelete, hwf₁, hlist₁⟩ := hledger.wellFormed.exec_delete_middle hlist
  have hord := hledger.wellFormed.ordered
  rw [hlist] at hord
  have hgone : ∀ slot ∈ t₁.toList, slot.key.overlaps key = false := by
    rw [hlist₁]
    exact hord.overlaps_middle le_rfl le_rfl
  have hle := key.le
  have hall := a.addressSpace.notAll
  have hspace := a.addressSpace.lt
  obtain ⟨hxs, hys⟩ := tiling_middle.mp (hlist ▸ hledger.tiling)
  have hend := Block.Tiles.le hys
  simp only at hxs hys hend
  by_cases hone : key.start = 1
  · refine ⟨.underflow, { s.allocator with tree := t₁ }, AddressAllocator.free_eq ?_, hgone⟩
    have hsub : checkedSub key.start 2 = none := if_neg (by omega)
    have hmerge : TreeM.exec (IntervalTree.mergeLeft key) t₁ = (.error (.error .underflow), t₁) := by
      rw [IntervalTree.mergeLeft, if_pos (by omega), hsub, exec_bind_error (exec_orError_none _ _)]
    rw [IntervalTree.free, exec_bind_ok hdelete, exec_bind_error hmerge]
  · refine ⟨.overflow, { s.allocator with tree := t₁ }, AddressAllocator.free_eq ?_, hgone⟩
    have hlast := hedge.resolve_left hone
    obtain ⟨range, _, _, hmerge, _, hrange, _⟩ :=
      hwf₁.exec_mergeLeft hlist₁ hxs (fun b hb => (hys.mem_bounds hb).1) hone (by omega)
    have hlow : checkedAdd range.last 1 = some (range.last + 1) := if_pos (by omega)
    have hhigh : checkedAdd range.last 2 = none := if_neg (by omega)
    have hmerge' : TreeM.exec (IntervalTree.mergeRight range) t₁ = (.error (.error .overflow), t₁) := by
      rw [IntervalTree.mergeRight, if_pos (by omega), hlow, exec_bind_ok (exec_orError_some _ _ _), hhigh,
        exec_bind_error (exec_orError_none _ _)]
    rw [IntervalTree.free, exec_bind_ok hdelete, exec_bind_ok hmerge, exec_bind_error hmerge']

/-! ## Exact matches -/

/-- An exact match does not look at the state of the slot: a part of what a client holds is handed out once more. -/
theorem exact_match_shares (hnew : AddressAllocator.new base size = .ok a) (hrun : (allocations a).run acts = some s)
    (hlen : acts.length ≤ maxActions) (hsound : ∀ s act, (allocations a).Takes acts s act → act.Sound s)
    (hkey : key ∈ s.live) {start : Nat} (hlow : key.start ≤ start) (hhigh : start + length.toNat ≤ key.last + 1)
    (hnext : start < key.last) (hend : start + length.toNat < 2 ^ 64) (hpart : length.toNat < key.len) (hlength : length ≠ 0)
    (hpow : isPowerOfTwo alignment.toNat = true) (hdvd : alignment.toNat ∣ start) :
    ∃ result, (s.allocator.allocate length.toNat alignment.toNat (.exactMatch start)).1 = .ok result ∧
      result.start = start ∧ result.last + 1 = start + length.toNat ∧ key.start ≤ result.start ∧
      result.last ≤ key.last := by
  have hledger := Ledger.run hnew hrun hlen hsound
  have hslot := hledger.mem_live.mp hkey
  have hpos : length.toNat ≠ 0 := fun he => hlength (UInt64.toNat_inj.mp he)
  have hne : alignment.toNat ≠ 0 := by
    intro he
    simp [he, isPowerOfTwo] at hpow
  have hconstraint : Constraint.new length.toNat alignment.toNat (.exactMatch start) =
      .ok ⟨length.toNat, alignment.toNat, .exactMatch start⟩ := by
    simp [Constraint.new, hpos, hpow, hne, Nat.mod_eq_zero_of_dvd hdvd]
  obtain ⟨hc, _⟩ := Constraint.new_eq_ok alignment.toNat_lt hconstraint
  obtain ⟨range, hmatch⟩ := exactMatch_isOk (c := ⟨length.toNat, alignment.toNat, .exactMatch start⟩)
    hledger.wellFormed.ordered hslot hc.size_pos hlow hnext hhigh
  have hrange := (exactMatch_eq_ok hledger.wellFormed.ordered hmatch).2.1
  obtain ⟨t', result, hexec, hresult, hlast, _⟩ := hledger.wellFormed.exec_allocate hledger.tiling (hledger.room hlen) hc
    (show s.allocator.tree.findCandidate ⟨length.toNat, alignment.toNat, .exactMatch start⟩ = .ok _ from hmatch)
    (by simp only; omega) (fun _ hwhole => absurd hwhole hpart.ne')
  simp only at hlast
  exact ⟨result, by rw [AddressAllocator.allocate_eq hconstraint hexec], by omega, by omega, by omega, by omega⟩

end Rknpu.Pcie
