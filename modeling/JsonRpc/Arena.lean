import JsonRpc.Buffer

/-! # The bump arena

An `Arena` is a region address, the region's bytes by offset, the bump index and the
capacity. `arena_alloc_aligned` pads the index forward to the alignment, measured on the
address `region + index` in `uintptr_t`, then bumps it by the request. A region is a
valid object, so `region + size` does not pass the end of the address space.
-/

namespace JsonRpc
set_option autoImplicit false

/-- `alignof(max_align_t)` on the LP64 targets the server is built for. -/
def arenaDefaultAlignment : Nat := 16

structure Arena where
  region : Option Nat
  mem : Nat → UInt8
  index : Nat
  size : Nat

def arenaInit (arena : Arena) (region : Option Nat) (mem : Nat → UInt8) (size : Nat) : Arena :=
  if region.isSome ≠ decide (size ≠ 0) then arena else ⟨region, mem, 0, size⟩

/-- `arena_create`, given the outcomes of its two `calloc` calls: the record, then the region. -/
def arenaCreate (size : Nat) (record : Bool) (region : Option Nat) : Option Arena :=
  if size = 0 ∨ record = false then none
  else region.map fun r => arenaInit ⟨none, fun _ => 0, 0, 0⟩ (some r) (fun _ => 0) size

/-- The alignment step of `arena_alloc_aligned`, or `none` when the padding does not fit. -/
def arenaPad (arena : Arena) (region alignment : Nat) : Option Arena :=
  if alignment = 0 then some arena
  else
    let misalignment := (region + arena.index) % 2 ^ 64 % alignment
    if misalignment = 0 then some arena
    else if alignment - misalignment > arena.size - arena.index then none
    else some { arena with index := arena.index + (alignment - misalignment) }

def arenaAllocAligned (arena : Arena) (size alignment : Nat) : Option Nat × Arena :=
  if size = 0 then (none, arena)
  else
    match arena.region with
    | none => (none, arena)
    | some region =>
      if arena.index > arena.size then (none, arena)
      else
        match arenaPad arena region alignment with
        | none => (none, arena)
        | some arena =>
          if size > arena.size - arena.index then (none, arena)
          else (some (region + arena.index), { arena with index := arena.index + size })

def arenaAlloc (arena : Arena) (size : Nat) : Option Nat × Arena :=
  arenaAllocAligned arena size arenaDefaultAlignment

def arenaCopy (dest src : Arena) : Nat × Arena :=
  match dest.region, src.region with
  | some _, some _ =>
    let bytes := if src.index < dest.size then src.index else dest.size
    (bytes, { dest with
      mem := if bytes ≠ 0 then fun i => if i < bytes then src.mem i else dest.mem i else dest.mem
      index := bytes })
  | _, _ => (0, dest)

def arenaClear (arena : Arena) : Arena := { arena with index := 0 }

inductive ArenaOp
  | init (region : Option Nat) (mem : Nat → UInt8) (size : Nat)
  | alloc (size : Nat)
  | allocAligned (size alignment : Nat)
  | copy (src : Arena)
  | clear
  | write (offset : Nat) (data : List UInt8)

def ArenaOp.Valid : ArenaOp → Prop
  | .init region _ size => ∀ r, region = some r → r + size ≤ 2 ^ 64
  | _ => True

def allocStep (s : Arena × List (Nat × Nat)) (size alignment : Nat) :
    Arena × List (Nat × Nat) :=
  match arenaAllocAligned s.1 size alignment with
  | (some p, arena) => (arena, s.2 ++ [(p - s.1.region.getD 0, size)])
  | (none, arena) => (arena, s.2)

/-- One operation on an arena and on the blocks it handed out since its last reset. -/
def ArenaOp.step : ArenaOp → Arena × List (Nat × Nat) → Arena × List (Nat × Nat)
  | .init region mem size, (a, blocks) =>
    if region.isSome = decide (size ≠ 0) then (arenaInit a region mem size, []) else (a, blocks)
  | .alloc size, s => allocStep s size arenaDefaultAlignment
  | .allocAligned size alignment, s => allocStep s size alignment
  | .copy src, (a, blocks) =>
    if a.region.isSome ∧ src.region.isSome then ((arenaCopy a src).2, []) else (a, blocks)
  | .clear, (a, _) => (arenaClear a, [])
  | .write offset data, (a, blocks) => ({ a with mem := writeBytes a.mem offset data }, blocks)

/-- The arenas a client can hold, with the blocks handed out since the last reset. -/
inductive ArenaReachable : Arena → List (Nat × Nat) → Prop
  | create {size region : Nat} {arena : Arena} :
      arenaCreate size true (some region) = some arena → region + size ≤ 2 ^ 64 →
      ArenaReachable arena []
  | init (a : Arena) {region : Option Nat} (mem : Nat → UInt8) {size : Nat} :
      region.isSome = decide (size ≠ 0) → (∀ r, region = some r → r + size ≤ 2 ^ 64) →
      ArenaReachable (arenaInit a region mem size) []
  | step {a : Arena} {blocks : List (Nat × Nat)} (op : ArenaOp) :
      ArenaReachable a blocks → op.Valid →
      ArenaReachable (op.step (a, blocks)).1 (op.step (a, blocks)).2

def runArenaOps (ops : List ArenaOp) (s : Arena × List (Nat × Nat)) : Arena × List (Nat × Nat) :=
  ops.foldl (fun s op => op.step s) s

theorem ArenaReachable.run {a : Arena} {blocks : List (Nat × Nat)} (h : ArenaReachable a blocks)
    (ops : List ArenaOp) (hOps : ∀ op ∈ ops, op.Valid) :
    ArenaReachable (runArenaOps ops (a, blocks)).1 (runArenaOps ops (a, blocks)).2 := by
  induction ops generalizing a blocks with
  | nil => exact h
  | cons op ops ih =>
    exact ih (h.step op (hOps op (List.mem_cons_self _ _))) fun o ho =>
      hOps o (List.mem_cons_of_mem _ ho)

def BlocksDisjoint (x y : Nat × Nat) : Prop := x.1 + x.2 ≤ y.1 ∨ y.1 + y.2 ≤ x.1

structure ArenaInv (a : Arena) (blocks : List (Nat × Nat)) : Prop where
  index_le : a.index ≤ a.size
  region_fits : ∀ r, a.region = some r → r + a.size ≤ 2 ^ 64
  blocks_below : ∀ blk ∈ blocks, blk.1 + blk.2 ≤ a.index
  disjoint : blocks.Pairwise BlocksDisjoint

theorem add_pad_mod {x alignment : Nat} (hA : alignment ≠ 0) :
    (x + (alignment - x % alignment)) % alignment = 0 := by
  have hPos : 0 < alignment := Nat.pos_of_ne_zero hA
  have hLt := Nat.mod_lt x hPos
  have hLe := Nat.mod_le x alignment
  rw [show x + (alignment - x % alignment) = x - x % alignment + alignment by omega]
  exact Nat.mod_eq_zero_of_dvd (Nat.dvd_add (Nat.dvd_sub_mod x) (Nat.dvd_refl _))

theorem arenaPad_spec {a a' : Arena} {region alignment : Nat}
    (h : arenaPad a region alignment = some a') (hIndex : a.index ≤ a.size) :
    a' = { a with index := a'.index } ∧ a.index ≤ a'.index ∧ a'.index ≤ a.size ∧
      (alignment ≠ 0 → region + a.index < 2 ^ 64 → (region + a'.index) % alignment = 0) := by
  unfold arenaPad at h
  split at h
  · cases h
    exact ⟨rfl, le_rfl, hIndex, fun hA => absurd ‹alignment = 0› hA⟩
  · rename_i hA
    dsimp only at h
    split at h
    · rename_i hMis
      cases h
      refine ⟨rfl, le_rfl, hIndex, fun _ hFit => ?_⟩
      rwa [Nat.mod_eq_of_lt hFit] at hMis
    · split at h
      · cases h
      · rename_i hMis hRoom
        cases h
        refine ⟨rfl, Nat.le_add_right _ _, ?_, fun _ hFit => ?_⟩
        · show a.index + (alignment - (region + a.index) % 2 ^ 64 % alignment) ≤ a.size
          omega
        · show (region + (a.index + (alignment - (region + a.index) % 2 ^ 64 % alignment))) %
            alignment = 0
          rw [Nat.mod_eq_of_lt hFit, ← Nat.add_assoc]
          exact add_pad_mod hA

theorem arenaAllocAligned_some {a a' : Arena} {size alignment p : Nat}
    (h : arenaAllocAligned a size alignment = (some p, a')) :
    ∃ r i, a.region = some r ∧ 0 < size ∧ a.index ≤ i ∧ i + size ≤ a.size ∧ p = r + i ∧
      a' = { a with index := i + size } ∧
      (alignment ≠ 0 → r + a.index < 2 ^ 64 → (r + i) % alignment = 0) := by
  unfold arenaAllocAligned at h
  split at h
  · cases h
  · rename_i hSize
    split at h
    · cases h
    · rename_i r hRegion
      split at h
      · cases h
      · rename_i hIndex
        split at h
        · cases h
        · rename_i padded hPad
          obtain ⟨hShape, hLe, hLe', hAlign⟩ := arenaPad_spec hPad (by omega)
          split at h
          · cases h
          · rename_i hRoom
            cases h
            refine ⟨r, padded.index, hRegion, Nat.pos_of_ne_zero hSize, hLe, ?_, rfl, ?_, hAlign⟩
            · have : padded.size = a.size := by rw [hShape]
              omega
            · rw [hShape]

theorem arenaAllocAligned_none {a a' : Arena} {size alignment : Nat}
    (h : arenaAllocAligned a size alignment = (none, a')) (hIndex : a.index ≤ a.size) :
    a' = { a with index := a'.index } ∧ a.index ≤ a'.index ∧ a'.index ≤ a.size := by
  unfold arenaAllocAligned at h
  split at h
  · cases h; exact ⟨rfl, le_rfl, hIndex⟩
  · split at h
    · cases h; exact ⟨rfl, le_rfl, hIndex⟩
    · split at h
      · cases h; exact ⟨rfl, le_rfl, hIndex⟩
      · split at h
        · cases h; exact ⟨rfl, le_rfl, hIndex⟩
        · rename_i padded hPad
          obtain ⟨hShape, hLe, hLe', -⟩ := arenaPad_spec hPad hIndex
          split at h
          · cases h; exact ⟨hShape, hLe, hLe'⟩
          · cases h

theorem ArenaInv.allocStep_inv {a : Arena} {blocks : List (Nat × Nat)} (hInv : ArenaInv a blocks)
    (size alignment : Nat) :
    ArenaInv (allocStep (a, blocks) size alignment).1 (allocStep (a, blocks) size alignment).2 := by
  unfold allocStep
  dsimp only
  split
  · rename_i p a' hAlloc
    obtain ⟨r, i, hRegion, -, hLe, hFits, rfl, rfl, -⟩ := arenaAllocAligned_some hAlloc
    simp only [hRegion, Option.getD_some, Nat.add_sub_cancel_left]
    refine ⟨hFits, fun r' h => hInv.region_fits r' (hRegion.trans h), fun blk hBlk => ?_, ?_⟩
    · rcases List.mem_append.mp hBlk with hOld | hNew
      · have := hInv.blocks_below blk hOld
        show blk.1 + blk.2 ≤ i + size
        omega
      · rw [List.mem_singleton.mp hNew]
    · refine List.pairwise_append.mpr ⟨hInv.disjoint, List.pairwise_singleton _ _, ?_⟩
      intro x hx y hy
      rw [List.mem_singleton.mp hy]
      have := hInv.blocks_below x hx
      exact .inl (by show x.1 + x.2 ≤ i; omega)
  · rename_i a' hAlloc
    obtain ⟨hShape, hLe, hLe'⟩ := arenaAllocAligned_none hAlloc hInv.index_le
    rw [hShape]
    exact ⟨hLe', hInv.region_fits, fun blk h => le_trans (hInv.blocks_below blk h) hLe,
      hInv.disjoint⟩

theorem arenaInit_of_match (a : Arena) {region : Option Nat} (mem : Nat → UInt8) {size : Nat}
    (h : region.isSome = decide (size ≠ 0)) : arenaInit a region mem size = ⟨region, mem, 0, size⟩ := by
  simp [arenaInit, h]

theorem arenaInit_inv (a : Arena) {region : Option Nat} (mem : Nat → UInt8) {size : Nat}
    (h : region.isSome = decide (size ≠ 0)) (hFits : ∀ r, region = some r → r + size ≤ 2 ^ 64) :
    ArenaInv (arenaInit a region mem size) [] := by
  rw [arenaInit_of_match a mem h]
  exact ⟨Nat.zero_le _, hFits, by simp, .nil⟩

theorem ArenaInv.step {a : Arena} {blocks : List (Nat × Nat)} (hInv : ArenaInv a blocks)
    {op : ArenaOp} (hOp : op.Valid) : ArenaInv (op.step (a, blocks)).1 (op.step (a, blocks)).2 := by
  cases op with
  | init region mem size =>
    simp only [ArenaOp.step]
    split
    · exact arenaInit_inv a mem ‹_› hOp
    · exact hInv
  | alloc size => exact hInv.allocStep_inv size _
  | allocAligned size alignment => exact hInv.allocStep_inv size alignment
  | copy src =>
    simp only [ArenaOp.step]
    split
    · unfold arenaCopy
      split
      · refine ⟨?_, hInv.region_fits, by simp, .nil⟩
        show (if src.index < a.size then src.index else a.size) ≤ a.size
        split <;> omega
      · exact ⟨hInv.index_le, hInv.region_fits, by simp, .nil⟩
    · exact hInv
  | clear => exact ⟨Nat.zero_le _, hInv.region_fits, by simp [ArenaOp.step], .nil⟩
  | write offset data => exact ⟨hInv.index_le, hInv.region_fits, hInv.blocks_below, hInv.disjoint⟩

theorem ArenaReachable.inv {a : Arena} {blocks : List (Nat × Nat)} (h : ArenaReachable a blocks) :
    ArenaInv a blocks := by
  induction h with
  | create hCreate hFits =>
    rename_i size region arena
    unfold arenaCreate at hCreate
    split at hCreate
    · cases hCreate
    · cases hCreate
      exact arenaInit_inv _ _ (by simp_all) fun r hr => by cases hr; exact hFits
  | init a mem hMatch hFits => exact arenaInit_inv a mem hMatch hFits
  | step op _ hOp ih => exact ih.step hOp

/-- In every reachable arena `index <= size`; each new block is in the region, aligned and fresh. -/
theorem arena_bump_invariant {a : Arena} {blocks : List (Nat × Nat)}
    (h : ArenaReachable a blocks) :
    a.index ≤ a.size ∧
      ∀ size alignment p a', arenaAllocAligned a size alignment = (some p, a') →
        ∃ r o, a.region = some r ∧ p = r + o ∧ o + size ≤ a.size ∧
          (alignment ≠ 0 → p % alignment = 0) ∧ ∀ blk ∈ blocks, BlocksDisjoint (o, size) blk := by
  have hInv := h.inv
  refine ⟨hInv.index_le, fun size alignment p a' hAlloc => ?_⟩
  obtain ⟨r, i, hRegion, hPos, hLe, hFits, rfl, -, hAlign⟩ := arenaAllocAligned_some hAlloc
  have hRoom := hInv.region_fits r hRegion
  refine ⟨r, i, hRegion, rfl, hFits, fun hA => hAlign hA (by omega), fun blk hBlk => ?_⟩
  have := hInv.blocks_below blk hBlk
  exact .inr (by omega)

theorem arena_bump_invariant_two_blocks :
    ArenaReachable ⟨some 4096, fun _ => 0, 12, 64⟩ [(0, 8), (8, 4)] ∧
      (⟨some 4096, fun _ => 0, 12, 64⟩ : Arena).index ≤ 64 ∧
      ∀ size alignment p a', arenaAllocAligned ⟨some 4096, fun _ => 0, 12, 64⟩ size alignment =
          (some p, a') →
        ∃ r o, (some 4096 : Option Nat) = some r ∧ p = r + o ∧ o + size ≤ 64 ∧
          (alignment ≠ 0 → p % alignment = 0) ∧
          ∀ blk ∈ [(0, 8), (8, 4)], BlocksDisjoint (o, size) blk :=
  have hReach : ArenaReachable ⟨some 4096, fun _ => 0, 12, 64⟩ [(0, 8), (8, 4)] :=
    (@ArenaReachable.create 64 4096 _ rfl (by decide)).run [.alloc 8, .allocAligned 4 4]
      (by simp [ArenaOp.Valid])
  ⟨hReach, arena_bump_invariant hReach⟩

/-- A failed `arena_alloc_aligned(20, 16)` keeps its padding: a request that fitted now fails. -/
theorem arenaAllocAligned_failure_keeps_padding :
    ArenaReachable ⟨some 4096, fun _ => 0, 1, 32⟩ [(0, 1)] ∧
      (arenaAllocAligned ⟨some 4096, fun _ => 0, 1, 32⟩ 20 16).1 = none ∧
      (arenaAllocAligned ⟨some 4096, fun _ => 0, 1, 32⟩ 20 16).2.index = 16 ∧
      (arenaAllocAligned ⟨some 4096, fun _ => 0, 1, 32⟩ 24 8).1 = some 4104 ∧
      (arenaAllocAligned (arenaAllocAligned ⟨some 4096, fun _ => 0, 1, 32⟩ 20 16).2 24 8).1 =
        none :=
  ⟨(@ArenaReachable.create 32 4096 _ rfl (by decide)).step (.alloc 1) trivial, by decide, rfl,
    by decide, by decide⟩

/-- `arena_clear` only resets the index: the next block still holds the byte written before it. -/
theorem arena_clear_keeps_written_bytes :
    (runArenaOps [.alloc 8] (⟨some 4096, fun _ => 0, 0, 64⟩, [])).2 = [(0, 8)] ∧
      ArenaReachable
        (runArenaOps [.alloc 8, .write 0 [1], .clear] (⟨some 4096, fun _ => 0, 0, 64⟩, [])).1
        (runArenaOps [.alloc 8, .write 0 [1], .clear] (⟨some 4096, fun _ => 0, 0, 64⟩, [])).2 ∧
      (arenaAllocAligned
        (runArenaOps [.alloc 8, .write 0 [1], .clear] (⟨some 4096, fun _ => 0, 0, 64⟩, [])).1
        8 16).1 = some 4096 ∧
      readBytes (arenaAllocAligned
        (runArenaOps [.alloc 8, .write 0 [1], .clear] (⟨some 4096, fun _ => 0, 0, 64⟩, [])).1
        8 16).2.mem 0 8 = [1, 0, 0, 0, 0, 0, 0, 0] :=
  ⟨by decide, (@ArenaReachable.create 64 4096 _ rfl (by decide)).run _ (by simp [ArenaOp.Valid]),
    by decide, by decide⟩

end JsonRpc
