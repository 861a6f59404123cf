import JsonRpc.Arena

/-! # The allocation list of an `ARENA_DEBUG` build

Built with `ARENA_DEBUG`, the arena record also counts its allocations and keeps the list of
`Arena_Allocation` nodes that starts at `head_allocation`. `arena_alloc_aligned` appends a node,
through `arena_add_allocation`, for each block it hands out, after the padding and before the
bump; the node comes from `ARENA_MALLOC` (`calloc`), so a node allocation that fails leaves the
block unrecorded. `arena_clear` and `arena_destroy` free the whole list, `arena_init` starts an
empty one without freeing the old, and `arena_copy` leaves it as it is.

The debug build refines the release build: its arena hands out the same blocks. Over the
operations the core makes on an arena, the list records the blocks handed out since the last
clear, finds each of them by its pointer, and holds exactly the system blocks the run took and
did not give back. Only `arena_init`, which drops the list without freeing its nodes, and
`arena_copy`, which moves the index and keeps the list, put it out of step; the core makes
neither.
-/

namespace JsonRpc
set_option autoImplicit false

/-- `Arena_Allocation`, with the system block that holds the node. -/
structure ArenaAllocation where
  index : Nat
  size : Nat
  pointer : Nat
  node : Nat
  deriving DecidableEq

/-- `Arena` with the fields of `ARENA_DEBUG`: the count, and the list from `head_allocation`. -/
structure DebugArena where
  arena : Arena
  allocations : Nat
  headAllocation : List ArenaAllocation

def arenaCreateDebug (size : Nat) (record : Bool) (region : Option Nat) : Option DebugArena :=
  (arenaCreate size record region).map fun arena => ⟨arena, 0, []⟩

def arenaInitDebug (d : DebugArena) (region : Option Nat) (mem : Nat → UInt8) (size : Nat) :
    DebugArena :=
  if region.isSome ≠ decide (size ≠ 0) then d else ⟨⟨region, mem, 0, size⟩, 0, []⟩

/-- `arena_add_allocation`: a node at the tail, unless there is no region or its `calloc` fails. -/
def arenaAddAllocation (d : DebugArena) (h : Heap) (size : Nat) : DebugArena × Heap :=
  match d.arena.region with
  | none => (d, h)
  | some region =>
    match h.calloc with
    | (none, h) => (d, h)
    | (some node, h) =>
      ({ d with
          headAllocation :=
            d.headAllocation ++ [⟨d.arena.index, size, region + d.arena.index, node⟩]
          allocations := d.allocations + 1 }, h)

def arenaGetAllocationStruct (d : DebugArena) (ptr : Option Nat) : Option ArenaAllocation :=
  match ptr with
  | none => none
  | some p => d.headAllocation.find? (·.pointer == p)

def arenaDeleteAllocationList (d : DebugArena) (h : Heap) : DebugArena × Heap :=
  ({ d with allocations := 0, headAllocation := [] },
    d.headAllocation.foldl (fun h n => h.free n.node) h)

/-- `arena_alloc_aligned` of a debug build: the node is added after the padding, before the bump. -/
def arenaAllocAlignedDebug (d : DebugArena) (h : Heap) (size alignment : Nat) :
    Option Nat × DebugArena × Heap :=
  if size = 0 then (none, d, h)
  else
    match d.arena.region with
    | none => (none, d, h)
    | some region =>
      if d.arena.index > d.arena.size then (none, d, h)
      else
        match arenaPad d.arena region alignment with
        | none => (none, d, h)
        | some arena =>
          if size > arena.size - arena.index then (none, { d with arena }, h)
          else
            let (d, h) := arenaAddAllocation { d with arena } h size
            (some (region + d.arena.index),
              { d with arena := { d.arena with index := d.arena.index + size } }, h)

def arenaAllocDebug (d : DebugArena) (h : Heap) (size : Nat) : Option Nat × DebugArena × Heap :=
  arenaAllocAlignedDebug d h size arenaDefaultAlignment

def arenaCopyDebug (dest : DebugArena) (src : Arena) : Nat × DebugArena :=
  ((arenaCopy dest.arena src).1, { dest with arena := (arenaCopy dest.arena src).2 })

def arenaClearDebug (d : DebugArena) (h : Heap) : DebugArena × Heap :=
  arenaDeleteAllocationList { d with arena := arenaClear d.arena } h

/-- `arena_destroy`, for the system blocks of the list. -/
def arenaDestroy (d : DebugArena) (h : Heap) : Heap := (arenaDeleteAllocationList d h).2

def ArenaOp.debugStep : ArenaOp → DebugArena × Heap → DebugArena × Heap
  | .init region mem size, (d, h) => (arenaInitDebug d region mem size, h)
  | .alloc size, (d, h) => (arenaAllocDebug d h size).2
  | .allocAligned size alignment, (d, h) => (arenaAllocAlignedDebug d h size alignment).2
  | .copy src, (d, h) => ((arenaCopyDebug d src).2, h)
  | .clear, (d, h) => arenaClearDebug d h
  | .write offset data, (d, h) =>
    ({ d with arena := { d.arena with mem := writeBytes d.arena.mem offset data } }, h)

def runDebugOps (ops : List ArenaOp) (s : DebugArena × Heap) : DebugArena × Heap :=
  ops.foldl (fun s op => op.debugStep s) s

@[simp] theorem arenaAddAllocation_arena (d : DebugArena) (h : Heap) (size : Nat) :
    (arenaAddAllocation d h size).1.arena = d.arena := by
  unfold arenaAddAllocation
  split
  · rfl
  · split <;> rfl

theorem arenaAllocAlignedDebug_eq (d : DebugArena) (h : Heap) (size alignment : Nat) :
    arenaAllocAlignedDebug d h size alignment =
      match arenaAllocAligned d.arena size alignment with
      | (none, arena) => (none, { d with arena }, h)
      | (some p, arena) =>
        (some p,
          { (arenaAddAllocation { d with arena := { arena with index := arena.index - size } } h
              size).1 with arena },
          (arenaAddAllocation { d with arena := { arena with index := arena.index - size } } h
            size).2) := by
  unfold arenaAllocAlignedDebug arenaAllocAligned
  by_cases hSize : size = 0
  · rw [if_pos hSize, if_pos hSize]
  rw [if_neg hSize, if_neg hSize]
  rcases d.arena.region with _ | region
  · rfl
  dsimp only
  by_cases hIndex : d.arena.index > d.arena.size
  · rw [if_pos hIndex, if_pos hIndex]
  rw [if_neg hIndex, if_neg hIndex]
  rcases arenaPad d.arena region alignment with _ | arena
  · rfl
  dsimp only
  by_cases hFit : size > arena.size - arena.index
  · rw [if_pos hFit, if_pos hFit]
  rw [if_neg hFit, if_neg hFit]
  simp

theorem allocStep_fst (s : Arena × List (Nat × Nat)) (size alignment : Nat) :
    (allocStep s size alignment).1 = (arenaAllocAligned s.1 size alignment).2 := by
  unfold allocStep
  split <;> simp_all

theorem arenaAllocAlignedDebug_release (d : DebugArena) (h : Heap) (size alignment : Nat) :
    (arenaAllocAlignedDebug d h size alignment).1 = (arenaAllocAligned d.arena size alignment).1 ∧
      (arenaAllocAlignedDebug d h size alignment).2.1.arena =
        (arenaAllocAligned d.arena size alignment).2 := by
  rw [arenaAllocAlignedDebug_eq]
  rcases arenaAllocAligned d.arena size alignment with ⟨_ | p, arena⟩ <;> exact ⟨rfl, rfl⟩

theorem ArenaOp.debugStep_arena (op : ArenaOp) (d : DebugArena) (h : Heap)
    (blocks : List (Nat × Nat)) : (op.debugStep (d, h)).1.arena = (op.step (d.arena, blocks)).1 := by
  cases op with
  | init region mem size =>
    simp only [ArenaOp.debugStep, ArenaOp.step, arenaInitDebug, arenaInit]
    split_ifs <;> first | rfl | contradiction
  | alloc size =>
    rw [ArenaOp.step, allocStep_fst]
    exact (arenaAllocAlignedDebug_release d h size _).2
  | allocAligned size alignment =>
    rw [ArenaOp.step, allocStep_fst]
    exact (arenaAllocAlignedDebug_release d h size alignment).2
  | copy src =>
    simp only [ArenaOp.debugStep, ArenaOp.step, arenaCopyDebug]
    split_ifs with hBoth
    · rfl
    · unfold arenaCopy
      split
      · simp_all
      · rfl
  | clear => rfl
  | write offset data => rfl

/-- The operations that keep the list in step with the blocks. -/
def ArenaOp.keepsList : ArenaOp → Bool
  | .init .. | .copy _ => false
  | _ => true

@[simp] theorem foldl_free_next (ns : List ArenaAllocation) (h : Heap) :
    (ns.foldl (fun h n => h.free n.node) h).next = h.next := by
  induction ns generalizing h with
  | nil => rfl
  | cons n ns ih => exact ih _

@[simp] theorem foldl_free_faults (ns : List ArenaAllocation) (h : Heap) :
    (ns.foldl (fun h n => h.free n.node) h).faults = h.faults := by
  induction ns generalizing h with
  | nil => rfl
  | cons n ns ih => exact ih _

theorem foldl_free_live_filter (p : Nat → Bool) (ns : List ArenaAllocation) {h : Heap}
    {rest : List Nat} (hPerm : (h.live.filter p).Perm (ns.map (·.node) ++ rest)) :
    ((ns.foldl (fun h n => h.free n.node) h).live.filter p).Perm rest := by
  induction ns generalizing h with
  | nil => simpa using hPerm
  | cons n ns ih =>
    apply ih
    show ((h.live.erase n.node).filter p).Perm _
    rw [← List.erase_filter]
    simpa using hPerm.erase n.node

/-- The list of a debug arena with region `r`, against the blocks handed out since the reset. -/
structure DebugArena.Registry (r : Nat) (d : DebugArena) (h : Heap) (blocks : List (Nat × Nat))
    (base : Nat) (whole : Bool) : Prop where
  region : d.arena.region = some r
  count : d.allocations = d.headAllocation.length
  recorded : (d.headAllocation.map fun n => (n.index, n.size)).Sublist blocks
  pointer : ∀ n ∈ d.headAllocation, n.pointer = r + n.index
  size_pos : ∀ n ∈ d.headAllocation, 0 < n.size
  nodes : (h.live.filter (base ≤ ·)).Perm (d.headAllocation.map (·.node))
  base_le : base ≤ h.next
  complete : whole = true →
    d.headAllocation.map (fun n => (n.index, n.size)) = blocks ∧ true ∉ h.faults

theorem find?_pointer {l : List ArenaAllocation} (hl : l.Pairwise fun a b => a.pointer ≠ b.pointer)
    {n : ArenaAllocation} (hn : n ∈ l) : l.find? (·.pointer == n.pointer) = some n := by
  induction l with
  | nil => cases hn
  | cons a rest ih =>
    rw [List.pairwise_cons] at hl
    by_cases hEq : a = n
    · subst hEq
      exact List.find?_cons_of_pos _ (by simp)
    · have hRest : n ∈ rest := (List.mem_cons.mp hn).resolve_left (Ne.symm hEq)
      rw [List.find?_cons_of_neg _ (by simpa using hl.1 n hRest)]
      exact ih hl.2 hRest

namespace DebugArena.Registry

variable {r base : Nat} {whole : Bool} {d : DebugArena} {h : Heap} {blocks : List (Nat × Nat)}

theorem allocAligned (hR : d.Registry r h blocks base whole) (hInv : ArenaInv d.arena blocks)
    (size alignment : Nat) :
    (arenaAllocAlignedDebug d h size alignment).2.1.Registry r
      (arenaAllocAlignedDebug d h size alignment).2.2 (allocStep (d.arena, blocks) size alignment).2
      base whole := by
  rw [arenaAllocAlignedDebug_eq]
  unfold allocStep
  rcases hAlloc : arenaAllocAligned d.arena size alignment with ⟨_ | p, arena⟩
  · obtain ⟨hShape, -, -⟩ := arenaAllocAligned_none hAlloc hInv.index_le
    exact { hR with region := by rw [hShape]; exact hR.region }
  obtain ⟨r', i, hRegion, hPos, -, -, rfl, rfl, -⟩ := arenaAllocAligned_some hAlloc
  obtain rfl : r' = r := Option.some_injective _ (hRegion.symm.trans hR.region)
  rcases Heap.calloc_cases h with ⟨hHead, hCalloc⟩ | ⟨-, hCalloc⟩ <;>
    simp only [arenaAddAllocation, hRegion, hCalloc, Option.getD_some, Nat.add_sub_cancel,
      Nat.add_sub_cancel_left]
  · exact ⟨rfl, hR.count, hR.recorded.trans (List.sublist_append_left _ _), hR.pointer,
      hR.size_pos, hR.nodes, hR.base_le,
      fun hWhole => absurd (List.mem_of_mem_head? hHead) (hR.complete hWhole).2⟩
  · refine ⟨rfl, by simp [hR.count], by rw [List.map_append]; exact hR.recorded.append_right _,
      fun n hn => ?_, fun n hn => ?_, ?_, Nat.le_succ_of_le hR.base_le, fun hWhole => ?_⟩
    · rcases List.mem_append.mp hn with hn | hn
      · exact hR.pointer n hn
      · rw [List.mem_singleton.mp hn]
    · rcases List.mem_append.mp hn with hn | hn
      · exact hR.size_pos n hn
      · rw [List.mem_singleton.mp hn]
        exact hPos
    · rw [List.filter_cons_of_pos (by simpa using hR.base_le), List.map_append]
      exact (hR.nodes.cons _).trans (List.perm_append_singleton _ _).symm
    · obtain ⟨hEq, hNo⟩ := hR.complete hWhole
      exact ⟨by rw [List.map_append, hEq]; rfl, fun hT => hNo (List.mem_of_mem_tail hT)⟩

theorem clear (hR : d.Registry r h blocks base whole) :
    (arenaClearDebug d h).1.Registry r (arenaClearDebug d h).2 [] base whole :=
  ⟨hR.region, rfl, List.Sublist.slnil, by simp [arenaClearDebug, arenaDeleteAllocationList],
    by simp [arenaClearDebug, arenaDeleteAllocationList],
    @foldl_free_live_filter _ d.headAllocation h [] (by simpa using hR.nodes),
    by simpa [arenaClearDebug, arenaDeleteAllocationList] using hR.base_le,
    fun hWhole => ⟨rfl, by simpa [arenaClearDebug, arenaDeleteAllocationList] using
      (hR.complete hWhole).2⟩⟩

theorem step (hR : d.Registry r h blocks base whole) (hInv : ArenaInv d.arena blocks) {op : ArenaOp}
    (hOp : op.keepsList = true) :
    (op.debugStep (d, h)).1.Registry r (op.debugStep (d, h)).2 (op.step (d.arena, blocks)).2 base
      whole := by
  cases op with
  | init => cases hOp
  | copy => cases hOp
  | alloc size => exact hR.allocAligned hInv size _
  | allocAligned size alignment => exact hR.allocAligned hInv size alignment
  | clear => exact hR.clear
  | write offset data => exact { hR with region := hR.region }

theorem get (hR : d.Registry r h blocks base whole) (hDisjoint : blocks.Pairwise BlocksDisjoint)
    {n : ArenaAllocation} (hn : n ∈ d.headAllocation) :
    arenaGetAllocationStruct d (some n.pointer) = some n := by
  have hApart : d.headAllocation.Pairwise fun a b => a.pointer ≠ b.pointer := by
    refine (List.pairwise_map.mp (hDisjoint.sublist hR.recorded)).imp_of_mem fun {a b} ha hb hAB => ?_
    have hA := hR.size_pos a ha
    have hB := hR.size_pos b hb
    rw [hR.pointer a ha, hR.pointer b hb]
    unfold BlocksDisjoint at hAB
    dsimp only at hAB
    omega
  exact find?_pointer hApart hn

end DebugArena.Registry

theorem runDebugOps_registry (ops : List ArenaOp) (hOps : ∀ op ∈ ops, op.keepsList = true)
    {r base : Nat} {whole : Bool} {d : DebugArena} {h : Heap} {blocks : List (Nat × Nat)}
    (hR : d.Registry r h blocks base whole) (hInv : ArenaInv d.arena blocks) :
    (runDebugOps ops (d, h)).1.Registry r (runDebugOps ops (d, h)).2
      (runArenaOps ops (d.arena, blocks)).2 base whole ∧
      ArenaInv (runArenaOps ops (d.arena, blocks)).1 (runArenaOps ops (d.arena, blocks)).2 := by
  induction ops generalizing d h blocks with
  | nil => exact ⟨hR, hInv⟩
  | cons op ops ih =>
    have hOp := hOps op (List.mem_cons_self _ _)
    have hValid : op.Valid := by cases op <;> first | exact trivial | cases hOp
    have hNext := ih (fun o ho => hOps o (List.mem_cons_of_mem _ ho)) (hR.step hInv hOp)
      (by rw [ArenaOp.debugStep_arena op d h blocks]; exact hInv.step hValid)
    rw [ArenaOp.debugStep_arena op d h blocks] at hNext
    exact hNext

theorem arenaCreate_region {size region : Nat} {arena : Arena}
    (h : arenaCreate size true (some region) = some arena) : arena.region = some region := by
  unfold arenaCreate at h
  by_cases hSize : size = 0
  · simp [hSize] at h
  · rw [if_neg (by simpa using hSize), Option.map_some', Option.some.injEq] at h
    rw [← h, arenaInit, if_neg (by simpa using hSize)]

/-- In an `ARENA_DEBUG` build the list records the blocks handed out since the last clear. -/
theorem arenaDebug_allocation_list (ops : List ArenaOp) (hOps : ∀ op ∈ ops, op.keepsList = true)
    {size region : Nat} {d : DebugArena} (hCreate : arenaCreateDebug size true (some region) = some d)
    (hFits : region + size ≤ 2 ^ 64) (h : Heap) (hHeap : ∀ b ∈ h.live, b < h.next) :
    (runDebugOps ops (d, h)).1.allocations = (runDebugOps ops (d, h)).1.headAllocation.length ∧
      ((runDebugOps ops (d, h)).1.headAllocation.map fun n => (n.index, n.size)).Sublist
        (runArenaOps ops (d.arena, [])).2 ∧
      (true ∉ h.faults →
        ((runDebugOps ops (d, h)).1.headAllocation.map fun n => (n.index, n.size)) =
          (runArenaOps ops (d.arena, [])).2) ∧
      (∀ n ∈ (runDebugOps ops (d, h)).1.headAllocation, n.pointer = region + n.index ∧
        arenaGetAllocationStruct (runDebugOps ops (d, h)).1 (some n.pointer) = some n) ∧
      ((runDebugOps ops (d, h)).2.live.filter (h.next ≤ ·)).Perm
        ((runDebugOps ops (d, h)).1.headAllocation.map (·.node)) ∧
      (arenaDestroy (runDebugOps ops (d, h)).1 (runDebugOps ops (d, h)).2).live.filter
        (h.next ≤ ·) = [] := by
  obtain ⟨arena, hArena, rfl⟩ := Option.map_eq_some'.mp hCreate
  have hReach : ArenaReachable arena [] := .create hArena hFits
  have hR₀ : DebugArena.Registry region ⟨arena, 0, []⟩ h [] h.next (decide (true ∉ h.faults)) :=
    ⟨arenaCreate_region hArena, rfl, .slnil, by simp, by simp,
      by simpa [List.filter_eq_nil_iff] using hHeap, le_rfl, fun hWhole => ⟨rfl, by simpa using hWhole⟩⟩
  obtain ⟨hR, hInv⟩ := runDebugOps_registry ops hOps hR₀ hReach.inv
  exact ⟨hR.count, hR.recorded, fun hNo => (hR.complete (by simpa using hNo)).1,
    fun n hn => ⟨hR.pointer n hn, hR.get hInv.disjoint hn⟩, hR.nodes,
    List.perm_nil.mp (@foldl_free_live_filter _ _ _ [] (by simpa using hR.nodes))⟩

theorem arenaDebug_allocation_list_clear_and_failure :
    (runDebugOps [.alloc 8, .alloc 8, .clear, .alloc 8, .alloc 8]
      (⟨⟨some 4096, fun _ => 0, 0, 64⟩, 0, []⟩,
       ⟨[], 0, [false, false, false, true]⟩)).1.allocations =
        (runDebugOps [.alloc 8, .alloc 8, .clear, .alloc 8, .alloc 8]
          (⟨⟨some 4096, fun _ => 0, 0, 64⟩, 0, []⟩,
           ⟨[], 0, [false, false, false, true]⟩)).1.headAllocation.length ∧
      ((runDebugOps [.alloc 8, .alloc 8, .clear, .alloc 8, .alloc 8]
        (⟨⟨some 4096, fun _ => 0, 0, 64⟩, 0, []⟩,
         ⟨[], 0, [false, false, false, true]⟩)).1.headAllocation.map
          fun n => (n.index, n.size)).Sublist
        (runArenaOps [.alloc 8, .alloc 8, .clear, .alloc 8, .alloc 8]
          (⟨some 4096, fun _ => 0, 0, 64⟩, [])).2 ∧
      (true ∉ [false, false, false, true] →
        ((runDebugOps [.alloc 8, .alloc 8, .clear, .alloc 8, .alloc 8]
          (⟨⟨some 4096, fun _ => 0, 0, 64⟩, 0, []⟩,
           ⟨[], 0, [false, false, false, true]⟩)).1.headAllocation.map
            fun n => (n.index, n.size)) =
          (runArenaOps [.alloc 8, .alloc 8, .clear, .alloc 8, .alloc 8]
            (⟨some 4096, fun _ => 0, 0, 64⟩, [])).2) ∧
      (∀ n ∈ (runDebugOps [.alloc 8, .alloc 8, .clear, .alloc 8, .alloc 8]
            (⟨⟨some 4096, fun _ => 0, 0, 64⟩, 0, []⟩,
             ⟨[], 0, [false, false, false, true]⟩)).1.headAllocation,
        n.pointer = 4096 + n.index ∧
          arenaGetAllocationStruct (runDebugOps [.alloc 8, .alloc 8, .clear, .alloc 8, .alloc 8]
              (⟨⟨some 4096, fun _ => 0, 0, 64⟩, 0, []⟩,
               ⟨[], 0, [false, false, false, true]⟩)).1 (some n.pointer) =
            some n) ∧
      ((runDebugOps [.alloc 8, .alloc 8, .clear, .alloc 8, .alloc 8]
        (⟨⟨some 4096, fun _ => 0, 0, 64⟩, 0, []⟩,
         ⟨[], 0, [false, false, false, true]⟩)).2.live.filter (0 ≤ ·)).Perm
        ((runDebugOps [.alloc 8, .alloc 8, .clear, .alloc 8, .alloc 8]
          (⟨⟨some 4096, fun _ => 0, 0, 64⟩, 0, []⟩,
           ⟨[], 0, [false, false, false, true]⟩)).1.headAllocation.map (·.node)) ∧
      (arenaDestroy (runDebugOps [.alloc 8, .alloc 8, .clear, .alloc 8, .alloc 8]
          (⟨⟨some 4096, fun _ => 0, 0, 64⟩, 0, []⟩,
           ⟨[], 0, [false, false, false, true]⟩)).1
        (runDebugOps [.alloc 8, .alloc 8, .clear, .alloc 8, .alloc 8]
          (⟨⟨some 4096, fun _ => 0, 0, 64⟩, 0, []⟩,
           ⟨[], 0, [false, false, false, true]⟩)).2).live.filter (0 ≤ ·) = [] :=
  arenaDebug_allocation_list [.alloc 8, .alloc 8, .clear, .alloc 8, .alloc 8] (by decide)
    (rfl : arenaCreateDebug 64 true (some 4096) = some ⟨⟨some 4096, fun _ => 0, 0, 64⟩, 0, []⟩)
    (by decide) ⟨[], 0, [false, false, false, true]⟩ (by simp)

/-- Without its precondition the list falls out of step: `arena_init` leaves the old node live. -/
example : (runDebugOps [.alloc 8, .init (some 8192) (fun _ => 0) 64]
      (⟨⟨some 4096, fun _ => 0, 0, 64⟩, 0, []⟩, ⟨[], 0, []⟩)).2.live = [0] ∧
    (runDebugOps [.alloc 8, .init (some 8192) (fun _ => 0) 64]
      (⟨⟨some 4096, fun _ => 0, 0, 64⟩, 0, []⟩, ⟨[], 0, []⟩)).1.headAllocation = [] := by
  decide

/-- After an `arena_copy` from an empty arena, the next block's lookup finds the old node. -/
example : arenaGetAllocationStruct (runDebugOps [.alloc 16, .copy ⟨some 8192, fun _ => 0, 0, 64⟩,
      .alloc 8] (⟨⟨some 4096, fun _ => 0, 0, 64⟩, 0, []⟩, ⟨[], 0, []⟩)).1 (some 4096) =
    some ⟨0, 16, 4096, 0⟩ := by
  decide

end JsonRpc
