import Rknpu.Queue.Theorems.Layout

/-!
# Lanes written by userspace

`rknpu_distribute_tasks_to_lanes` of the benchmark gives each lane the ceiling of what is left. The result is an even
split, and the driver accepts a dynamic submit that carries it.
-/

namespace Rknpu.Userspace

open Queue

/-! ## The loop -/

/-- `subcore_task` and `task_start`. -/
structure Lanes where
  subcoreTask : Vector RknpuSubcoreTask rknpuMaxSubcoreTasks
  taskStart : UInt32

/-- The body of the loop, in 32-bit arithmetic. C leaves a write outside the table undefined. -/
def Lanes.distribute (taskCount usedLanes : UInt32) (lanes : Lanes) (lane : UInt32) : Option Lanes :=
  let remainingTasks := taskCount - lanes.taskStart
  let remainingLanes := usedLanes - lane
  let laneTasks := (remainingTasks + remainingLanes - 1) / remainingLanes
  if h : lane.toNat < rknpuMaxSubcoreTasks then
    some ⟨lanes.subcoreTask.set lane.toNat ⟨lanes.taskStart, laneTasks⟩, lanes.taskStart + laneTasks⟩
  else none

def usedLanes (taskCount npuCores : UInt32) : UInt32 := if npuCores < taskCount then npuCores else taskCount

def rknpuDistributeTasksToLanes (submit : RknpuSubmit) (taskCount npuCores : UInt32) : Option RknpuSubmit :=
  let used := usedLanes taskCount npuCores
  let lanes : Lanes := ⟨Vector.replicate _ ⟨0, 0⟩, 0⟩
  ((List.range used.toNat).foldlM (fun (lanes : Lanes) lane => lanes.distribute taskCount used (UInt32.ofNat lane))
    lanes).map fun lanes => { submit with subcoreTask := lanes.subcoreTask }

example : (rknpuDistributeTasksToLanes .default 10 3).map (·.subcoreTask) =
    some #v[⟨0, 4⟩, ⟨4, 3⟩, ⟨7, 3⟩, ⟨0, 0⟩, ⟨0, 0⟩] := by
  decide +kernel

/-! ## An even split -/

/-- Lane `l` of an even split. -/
def evenLane (n u l : Nat) : RknpuSubcoreTask :=
  ⟨UInt32.ofNat (Block.even n u l).start, UInt32.ofNat (Block.even n u l).size⟩

/-- The table and the start after `k` lanes. -/
def evenLanes (n u k : Nat) : Lanes :=
  ⟨Vector.ofFn fun l => if l < k then evenLane n u l else ⟨0, 0⟩, UInt32.ofNat (Block.even n u k).start⟩

section

variable {n u : UInt32} {k : Nat}

theorem evenLane_block (hu : 0 < u.toNat) (hk : k < u.toNat) :
    (evenLane n.toNat u.toNat k).block = Block.even n.toNat u.toNat k := by
  have hlast := Block.even_start_le (n := n.toNat) hu (show k + 1 ≤ u.toNat from hk)
  rw [Block.even_succ] at hlast
  have hn := n.toNat_lt
  simp only [evenLane, RknpuSubcoreTask.block]
  rw [UInt32.toNat_ofNat_of_lt' (show _ < 2 ^ 32 by omega), UInt32.toNat_ofNat_of_lt' (show _ < 2 ^ 32 by omega)]

theorem lane_tasks {remainingTasks remainingLanes : UInt32} (hpos : 0 < remainingLanes.toNat)
    (hfit : remainingTasks.toNat + remainingLanes.toNat ≤ 2 ^ 32) :
    ((remainingTasks + remainingLanes - 1) / remainingLanes).toNat =
      (remainingTasks.toNat + remainingLanes.toNat - 1) / remainingLanes.toNat := by
  -- The sum may wrap to zero; taking one away brings it back.
  have hsum : (remainingTasks + remainingLanes - 1).toNat = remainingTasks.toNat + remainingLanes.toNat - 1 := by
    rw [UInt32.toNat_sub, UInt32.toNat_add, UInt32.toNat_one]
    omega
  rw [UInt32.toNat_div, hsum]

theorem distribute_evenLanes (hk : k < u.toNat) (hlanes : u.toNat ≤ rknpuMaxSubcoreTasks)
    (hfit : n.toNat + u.toNat ≤ 2 ^ 32) :
    (evenLanes n.toNat u.toNat k).distribute n u (UInt32.ofNat k) = some (evenLanes n.toNat u.toNat (k + 1)) := by
  have hu : 0 < u.toNat := Nat.zero_lt_of_lt hk
  have hlast := Block.even_start_le (n := n.toNat) hu (show k + 1 ≤ u.toNat from hk)
  rw [Block.even_succ] at hlast
  have hn := n.toNat_lt
  have hlane : (UInt32.ofNat k).toNat = k := UInt32.toNat_ofNat_of_lt' (lt_of_lt_of_le hk u.toNat_lt.le)
  have hstart : (UInt32.ofNat (Block.even n.toNat u.toNat k).start).toNat = (Block.even n.toNat u.toNat k).start :=
    UInt32.toNat_ofNat_of_lt' (show _ < 2 ^ 32 by omega)
  have hremaining : (n - UInt32.ofNat (Block.even n.toNat u.toNat k).start).toNat =
      n.toNat - (Block.even n.toNat u.toNat k).start := by
    rw [UInt32.toNat_sub_of_le _ _ (UInt32.le_iff_toNat_le.mpr (by omega)), hstart]
  have hleft : (u - UInt32.ofNat k).toNat = u.toNat - k := by
    rw [UInt32.toNat_sub_of_le _ _ (UInt32.le_iff_toNat_le.mpr (by omega)), hlane]
  have htasks : (n - UInt32.ofNat (Block.even n.toNat u.toNat k).start + (u - UInt32.ofNat k) - 1) /
      (u - UInt32.ofNat k) = UInt32.ofNat (Block.even n.toNat u.toNat k).size := by
    rw [← UInt32.toNat_inj, lane_tasks (by omega) (by omega), hremaining, hleft, Block.even_size_eq hk,
      UInt32.toNat_ofNat_of_lt' (show _ < 2 ^ 32 by omega)]
  have hin : (UInt32.ofNat k).toNat < rknpuMaxSubcoreTasks := by omega
  simp only [Lanes.distribute, evenLanes, htasks]
  rw [dif_pos hin]
  congr 2
  · apply Vector.ext
    intro l hl
    simp only [Vector.getElem_set, Vector.getElem_ofFn, hlane]
    by_cases hkl : k = l
    · simp [hkl, evenLane]
    · have hlt : l < k + 1 ↔ l < k := by omega
      simp [hkl, hlt]
  · rw [Block.even_succ, UInt32.ofNat_add]

theorem foldlM_evenLanes (hlanes : u.toNat ≤ rknpuMaxSubcoreTasks) (hfit : n.toNat + u.toNat ≤ 2 ^ 32)
    (hk : k ≤ u.toNat) :
    (List.range k).foldlM (fun (lanes : Lanes) lane => lanes.distribute n u (UInt32.ofNat lane))
      ⟨Vector.replicate _ ⟨0, 0⟩, 0⟩ = some (evenLanes n.toNat u.toNat k) := by
  induction k with
  | zero =>
      simp only [List.range_zero, List.foldlM_nil, evenLanes, Nat.not_lt_zero, ↓reduceIte, Block.even]
      congr 2
      simp
  | succ k ih =>
      rw [List.range_succ, List.foldlM_append, ih (by omega)]
      simp only [Option.bind_eq_bind, Option.bind_some, List.foldlM_cons, List.foldlM_nil]
      rw [distribute_evenLanes (by omega) hlanes hfit]
      rfl

theorem toList_evenLanes (hk : k ≤ rknpuMaxSubcoreTasks) (n u : Nat) :
    (evenLanes n u k).subcoreTask.toList =
      (List.range k).map (evenLane n u) ++ List.replicate (rknpuMaxSubcoreTasks - k) ⟨0, 0⟩ := by
  apply List.ext_getElem
  · simp [hk]
  · intro l hl _
    rw [List.getElem_append]
    by_cases hlk : l < k <;> simp [evenLanes, hlk]

theorem ownedBlocks_append (lanes lanes' : List RknpuSubcoreTask) :
    ownedBlocks (lanes ++ lanes') = ownedBlocks lanes ++ ownedBlocks lanes' := by
  simp [ownedBlocks]

/-- Empty lanes add nothing. -/
theorem sum_size_ownedBlocks (lanes : List RknpuSubcoreTask) :
    ((ownedBlocks lanes).map Block.size).sum = ((lanes.map (·.taskNumber)).map UInt32.toNat).sum := by
  induction lanes with
  | nil => rfl
  | cons lane lanes ih =>
      by_cases hzero : lane.taskNumber = 0
      · rw [ownedBlocks_cons_of_eq hzero, ih]
        simp [hzero]
      · rw [ownedBlocks_cons_of_ne hzero, List.map_cons, List.sum_cons, ih]
        rfl

theorem ownedBlocks_evenLanes (hlanes : u.toNat ≤ rknpuMaxSubcoreTasks) (hu : 0 < u.toNat) (hn : u.toNat ≤ n.toNat) :
    ownedBlocks (evenLanes n.toNat u.toNat u.toNat).subcoreTask.toList =
      (List.range u.toNat).map (Block.even n.toNat u.toNat) := by
  have hblock : ∀ l ∈ List.range u.toNat, (evenLane n.toNat u.toNat l).block = Block.even n.toNat u.toNat l :=
    fun l hl => evenLane_block hu (List.mem_range.mp hl)
  have hfilter : ((List.range u.toNat).map (evenLane n.toNat u.toNat)).filter (fun lane => lane.taskNumber ≠ 0) =
      (List.range u.toNat).map (evenLane n.toNat u.toNat) := by
    rw [List.filter_eq_self]
    intro lane hlane
    obtain ⟨l, hl, rfl⟩ := List.mem_map.mp hlane
    have hsize : (evenLane n.toNat u.toNat l).taskNumber.toNat = (Block.even n.toNat u.toNat l).size :=
      congrArg Block.size (hblock l hl)
    have hpos := Block.even_size_pos hu hn l
    rw [decide_eq_true_eq, Ne, ← UInt32.toNat_inj, UInt32.toNat_zero]
    omega
  rw [toList_evenLanes hlanes, ownedBlocks_append]
  have hrest : ownedBlocks (List.replicate (rknpuMaxSubcoreTasks - u.toNat) ⟨0, 0⟩) = [] := by
    simp [ownedBlocks]
  rw [hrest, List.append_nil, ownedBlocks, hfilter, List.map_map]
  exact List.map_congr_left hblock

end

/-! ## What the driver sees -/

/-- The first `u` lanes split `n` tasks evenly, the others are empty. -/
structure EvenLayout (table : Vector RknpuSubcoreTask rknpuMaxSubcoreTasks) (n u : Nat) : Prop where
  first : table[0].taskStart = 0
  consecutive : ∀ l l' : LaneSlot, l'.val = l.val + 1 → l'.val < u →
    (getElem table l' l'.isLt).taskStart.toNat = (getElem table l l.isLt).taskStart.toNat + (getElem table l l.isLt).taskNumber.toNat
  nonempty : ∀ l : LaneSlot, l.val < u → 0 < (getElem table l l.isLt).taskNumber
  rest : ∀ l : LaneSlot, u ≤ l.val → getElem table l l.isLt = ⟨0, 0⟩
  balanced : ∀ l l' : LaneSlot, l.val < u → l'.val < u →
    (getElem table l l.isLt).taskNumber.toNat ≤ (getElem table l' l'.isLt).taskNumber.toNat + 1
  total : ∑ l : LaneSlot, (getElem table l l.isLt).taskNumber.toNat = n

theorem evenLayout_evenLanes {n u : UInt32} (hlanes : u.toNat ≤ rknpuMaxSubcoreTasks) (hu : 0 < u.toNat)
    (hn : u.toNat ≤ n.toNat) : EvenLayout (evenLanes n.toNat u.toNat u.toNat).subcoreTask n.toNat u.toNat := by
  have hlane : ∀ l : LaneSlot, l.val < u.toNat →
      (evenLanes n.toNat u.toNat u.toNat).subcoreTask[l] = evenLane n.toNat u.toNat l := by
    intro l hl
    simp [evenLanes, hl]
  have hstart : ∀ l : LaneSlot, l.val < u.toNat →
      (evenLanes n.toNat u.toNat u.toNat).subcoreTask[l].taskStart.toNat = (Block.even n.toNat u.toNat l).start := by
    intro l hl
    rw [hlane l hl]
    exact congrArg Block.start (evenLane_block hu hl)
  have hsize : ∀ l : LaneSlot, l.val < u.toNat →
      (evenLanes n.toNat u.toNat u.toNat).subcoreTask[l].taskNumber.toNat = (Block.even n.toNat u.toNat l).size := by
    intro l hl
    rw [hlane l hl]
    exact congrArg Block.size (evenLane_block hu hl)
  refine ⟨?_, ?_, ?_, ?_, ?_, ?_⟩
  · rw [← UInt32.toNat_inj]
    refine (hstart 0 hu).trans ?_
    simp [Block.even]
  · intro l l' hsucc hl'
    rw [hstart l' hl', hstart l (by omega), hsize l (by omega), hsucc, Block.even_succ]
  · intro l hl
    rw [UInt32.lt_iff_toNat_lt, hsize l hl]
    exact Block.even_size_pos hu hn l
  · intro l hl
    simp [evenLanes, Nat.not_lt.mpr hl]
  · intro l l' hl hl'
    rw [hsize l hl, hsize l' hl']
    exact Block.even_size_le ..
  · have hsum := (Block.tiles_even_range n.toNat u.toNat u.toNat).sum_size
    rw [Block.even_start_self hu, ← ownedBlocks_evenLanes hlanes hu hn, sum_size_ownedBlocks,
      UInt32.sum_map_toNat_vector, Nat.zero_add] at hsum
    exact hsum

/-- The driver accepts a dynamic submit that carries an even split of its tasks. -/
theorem accepts_evenLanes {n u : UInt32} (hlanes : u.toNat ≤ rknpuMaxSubcoreTasks) (hu : 0 < u.toNat)
    (hn : u.toNat ≤ n.toNat) {dynamic : RknpuSubmit}
    (htable : dynamic.subcoreTask = (evenLanes n.toNat u.toNat u.toNat).subcoreTask) (htasks : dynamic.taskNumber = n)
    (hflags : dynamic.flags &&& ~~~rknpuSubmitAllowedFlags = 0)
    (hcores : dynamic.coreMask &&& ~~~rknpuValidCoreMask = 0) :
    SubmitMeta.dynamicLayoutIsValid dynamic = true := by
  have hconsecutive : lanesAreConsecutive dynamic.taskNumber dynamic.subcoreTask.toList 0 = true := by
    rw [lanesAreConsecutive_iff, htable, htasks]
    constructor
    · intro lane hlane hzero
      rw [toList_evenLanes hlanes, List.mem_append] at hlane
      rcases hlane with hlane | hlane
      · obtain ⟨l, hl, rfl⟩ := List.mem_map.mp hlane
        have hsize := congrArg Block.size (evenLane_block (n := n) hu (List.mem_range.mp hl))
        have hpos := Block.even_size_pos hu hn l
        rw [RknpuSubcoreTask.block, hzero, UInt32.toNat_zero] at hsize
        dsimp only at hsize
        omega
      · rw [List.eq_of_mem_replicate hlane]
    · rw [ownedBlocks_evenLanes hlanes hu hn]
      have htiles := Block.tiles_even_range n.toNat u.toNat u.toNat
      rw [Block.even_start_self hu] at htiles
      exact htiles
  have hpos : dynamic.taskNumber ≠ 0 := by
    rw [htasks, Ne, ← UInt32.toNat_inj, UInt32.toNat_zero]
    omega
  simp [SubmitMeta.dynamicLayoutIsValid, hflags, hcores, hpos, hconsecutive]

theorem toNat_usedLanes (taskCount npuCores : UInt32) :
    (usedLanes taskCount npuCores).toNat = min npuCores.toNat taskCount.toNat := by
  unfold usedLanes
  split
  · rename_i h
    have hlt := UInt32.lt_iff_toNat_lt.mp h
    omega
  · rename_i h
    have hle := UInt32.le_iff_toNat_le.mp (UInt32.not_lt.mp h)
    omega

/-- The lanes of a submit with 1 to 2^32 - 3 tasks for 1 to 3 cores are an even split, which the driver accepts. -/
theorem distributed_lanes_accepted (submit : RknpuSubmit) {taskCount npuCores : UInt32}
    (hcount : 1 ≤ taskCount.toNat ∧ taskCount.toNat ≤ 2 ^ 32 - 3) (hcores : 1 ≤ npuCores.toNat ∧ npuCores.toNat ≤ 3) :
    ∃ table, rknpuDistributeTasksToLanes submit taskCount npuCores = some { submit with subcoreTask := table } ∧
      EvenLayout table taskCount.toNat (min npuCores.toNat taskCount.toNat) ∧
      ∀ dynamic : RknpuSubmit, dynamic.subcoreTask = table → dynamic.taskNumber = taskCount →
        dynamic.flags &&& rknpuJobDynamicTasks ≠ 0 → dynamic.flags &&& ~~~rknpuSubmitAllowedFlags = 0 →
        dynamic.coreMask &&& ~~~rknpuValidCoreMask = 0 → SubmitMeta.dynamicLayoutIsValid dynamic = true := by
  have hused := toNat_usedLanes taskCount npuCores
  have hlanes : (usedLanes taskCount npuCores).toNat ≤ rknpuMaxSubcoreTasks := by
    rw [hused, rknpuMaxSubcoreTasks]
    omega
  have hpos : 0 < (usedLanes taskCount npuCores).toNat := by omega
  have hle : (usedLanes taskCount npuCores).toNat ≤ taskCount.toNat := by omega
  rw [← hused]
  refine ⟨_, ?_, evenLayout_evenLanes hlanes hpos hle, ?_⟩
  · simp only [rknpuDistributeTasksToLanes]
    rw [foldlM_evenLanes hlanes (by omega) (Nat.le_refl _)]
    rfl
  · intro dynamic htable htasks _ hflags hmask
    exact accepts_evenLanes hlanes hpos hle htable htasks hflags hmask

theorem distributed_lanes_accepted_max : ∃ table,
    rknpuDistributeTasksToLanes .default 4294967293 3 = some { RknpuSubmit.default with subcoreTask := table } ∧
    EvenLayout table 4294967293 3 := by
  obtain ⟨table, hrun, heven, _⟩ := @distributed_lanes_accepted .default 4294967293 3 (by decide) (by decide)
  exact ⟨table, hrun, heven⟩

end Rknpu.Userspace
