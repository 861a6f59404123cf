import JsonRpc.Arena
import JsonRpc.Scope

/-! # The tagged allocator shim

`jsonrpc_arena_malloc` puts every block the JSON library asks for in the bound arena, or in a
`calloc` block when there is none or it is full, behind a 16-byte header whose first eight
bytes hold the tag `JRPC` and the block's origin as little-endian `uint32_t`.
`jsonrpc_arena_free` steps back to the header and calls the system `free` when the tag
matches and the origin is the heap. A pointer is a location, an arena region or a heap
block, and an offset in it. Blocks are handed out and freed by a program of nested public
calls (`ShimProg`), whose scopes bind and clear arenas as `jsonrpc_arena_scope_begin/end` do.

As long as no `scope_end` clears an arena that an enclosing open scope binds, every block a
program holds keeps the header the shim wrote, so `jsonrpc_arena_free` passes to the system
`free` exactly the `calloc` blocks, each once. The invariant is over the bindings of the open
scopes: a held arena block lies in an arena bound at the depth it was allocated at.
-/

namespace JsonRpc
set_option autoImplicit false

def jsonrpcAllocTag : Nat := 0x4A525043
def jsonrpcAllocOriginArena : Nat := 1
def jsonrpcAllocOriginHeap : Nat := 2

/-- `JSONRPC_ALLOC_HEADER_BYTES`: the 8-byte header rounded up to `alignof(max_align_t)`. -/
def jsonrpcAllocHeaderBytes : Nat :=
  (8 + arenaDefaultAlignment - 1) / arenaDefaultAlignment * arenaDefaultAlignment

def leU32 (x : Nat) : List UInt8 :=
  [(x % 256).toUInt8, (x / 256 % 256).toUInt8, (x / 65536 % 256).toUInt8,
    (x / 16777216 % 256).toUInt8]

def ofLeBytes : List UInt8 → Nat
  | [] => 0
  | b :: rest => b.toNat + 256 * ofLeBytes rest

/-- The header `{tag, origin}` as the shim writes it. -/
def jsonrpcAllocHeader (origin : Nat) : List UInt8 := leU32 jsonrpcAllocTag ++ leU32 origin

inductive Loc
  | arena (id : Nat)
  | heap (block : Nat)
  deriving DecidableEq

def Loc.origin : Loc → Nat
  | .arena _ => jsonrpcAllocOriginArena
  | .heap _ => jsonrpcAllocOriginHeap

structure Ptr where
  loc : Loc
  off : Nat
  deriving DecidableEq

/-- What the shim reads and changes; the bytes of an arena region are those of its location. -/
structure ShimState where
  arenas : Nat → Arena
  current : Option Nat
  heap : Heap
  mem : Loc → Nat → UInt8
  freed : List Ptr

namespace ShimState

def setArena (s : ShimState) (id : Nat) (arena : Arena) : ShimState :=
  { s with arenas := fun i => if i = id then arena else s.arenas i }

def read (s : ShimState) (p : Ptr) (n : Nat) : List UInt8 := readBytes (s.mem p.loc) p.off n

def write (s : ShimState) (p : Ptr) (data : List UInt8) : ShimState :=
  { s with mem := fun l => if l = p.loc then writeBytes (s.mem l) p.off data else s.mem l }

def systemFree (s : ShimState) (raw : Ptr) : ShimState :=
  { s with
    freed := s.freed ++ [raw]
    heap := match raw.loc with
      | .heap b => if raw.off = 0 then s.heap.free b else s.heap
      | .arena _ => s.heap }

def scopeBegin (arena : Option Nat) (s : ShimState) : JsonrpcArenaScope × ShimState :=
  ((jsonrpcArenaScopeBegin s.current arena).1,
    { s with current := (jsonrpcArenaScopeBegin s.current arena).2 })

def scopeEnd (arena : Option Nat) (scope : JsonrpcArenaScope) (s : ShimState) : ShimState :=
  match (jsonrpcArenaScopeEnd s.current arena scope).2 with
  | some a =>
    { s.setArena a (arenaClear (s.arenas a)) with
      current := (jsonrpcArenaScopeEnd s.current arena scope).1 }
  | none => { s with current := (jsonrpcArenaScopeEnd s.current arena scope).1 }

end ShimState

/-- The arena part of `jsonrpc_arena_malloc`: `arena_alloc` on the bound arena. -/
def jsonrpcArenaTake (totalSize : Nat) (s : ShimState) : Option Ptr × ShimState :=
  match s.current with
  | none => (none, s)
  | some a =>
    match arenaAlloc (s.arenas a) totalSize with
    | (some p, arena) => (some ⟨.arena a, p - (s.arenas a).region.getD 0⟩, s.setArena a arena)
    | (none, arena) => (none, s.setArena a arena)

def jsonrpcArenaMalloc (size : Nat) (s : ShimState) : Option Ptr × ShimState :=
  if size = 0 then (none, s)
  else if size > sizeMax - jsonrpcAllocHeaderBytes then (none, s)
  else
    let totalSize := size + jsonrpcAllocHeaderBytes
    match jsonrpcArenaTake totalSize s with
    | (some raw, s) =>
      (some ⟨raw.loc, raw.off + jsonrpcAllocHeaderBytes⟩,
        s.write raw (jsonrpcAllocHeader jsonrpcAllocOriginArena))
    | (none, s) =>
      match s.heap.calloc with
      | (none, heap) => (none, { s with heap })
      | (some b, heap) =>
        (some ⟨.heap b, jsonrpcAllocHeaderBytes⟩,
          ({ s with heap, mem := fun l => if l = Loc.heap b then fun _ => 0 else s.mem l }).write
            ⟨.heap b, 0⟩ (jsonrpcAllocHeader jsonrpcAllocOriginHeap))

def jsonrpcArenaFree (ptr : Option Ptr) (s : ShimState) : ShimState :=
  match ptr with
  | none => s
  | some p =>
    let raw : Ptr := ⟨p.loc, p.off - jsonrpcAllocHeaderBytes⟩
    let header := s.read raw 8
    if ofLeBytes (header.take 4) ≠ jsonrpcAllocTag then s
    else if ofLeBytes (header.drop 4) = jsonrpcAllocOriginHeap then s.systemFree raw
    else s

theorem jsonrpcArenaMalloc_of_wrap {size : Nat} (s : ShimState)
    (h : sizeMax < size + jsonrpcAllocHeaderBytes) : jsonrpcArenaMalloc size s = (none, s) := by
  have hHeader : jsonrpcAllocHeaderBytes ≤ sizeMax := by decide
  unfold jsonrpcArenaMalloc
  split_ifs <;> first | rfl | omega

@[simp] theorem jsonrpcAllocHeaderBytes_eq : jsonrpcAllocHeaderBytes = 16 := rfl

@[simp] theorem jsonrpcAllocHeader_length (origin : Nat) :
    (jsonrpcAllocHeader origin).length = 8 := rfl

theorem ofLeBytes_header_tag (origin : Nat) :
    ofLeBytes ((jsonrpcAllocHeader origin).take 4) = jsonrpcAllocTag := by
  show ofLeBytes ((leU32 jsonrpcAllocTag ++ leU32 origin).take (leU32 jsonrpcAllocTag).length) = _
  rw [List.take_left]
  decide

theorem ofLeBytes_header_origin (l : Loc) :
    ofLeBytes ((jsonrpcAllocHeader l.origin).drop 4) = l.origin := by
  cases l <;> simp only [Loc.origin] <;> decide

namespace ShimState

@[simp] theorem setArena_arenas (s : ShimState) (id : Nat) (arena : Arena) (i : Nat) :
    (s.setArena id arena).arenas i = if i = id then arena else s.arenas i := rfl
@[simp] theorem setArena_current (s : ShimState) (id : Nat) (arena : Arena) :
    (s.setArena id arena).current = s.current := rfl
@[simp] theorem setArena_heap (s : ShimState) (id : Nat) (arena : Arena) :
    (s.setArena id arena).heap = s.heap := rfl
@[simp] theorem setArena_mem (s : ShimState) (id : Nat) (arena : Arena) :
    (s.setArena id arena).mem = s.mem := rfl
@[simp] theorem setArena_freed (s : ShimState) (id : Nat) (arena : Arena) :
    (s.setArena id arena).freed = s.freed := rfl

@[simp] theorem write_arenas (s : ShimState) (p : Ptr) (data : List UInt8) :
    (s.write p data).arenas = s.arenas := rfl
@[simp] theorem write_current (s : ShimState) (p : Ptr) (data : List UInt8) :
    (s.write p data).current = s.current := rfl
@[simp] theorem write_heap (s : ShimState) (p : Ptr) (data : List UInt8) :
    (s.write p data).heap = s.heap := rfl
@[simp] theorem write_freed (s : ShimState) (p : Ptr) (data : List UInt8) :
    (s.write p data).freed = s.freed := rfl

theorem read_write_of_disjoint (s : ShimState) {w r : Ptr} (data : List UInt8) {n : Nat}
    (h : r.loc ≠ w.loc ∨ r.off + n ≤ w.off ∨ w.off + data.length ≤ r.off) :
    (s.write w data).read r n = s.read r n := by
  unfold read write
  dsimp only
  split_ifs with hLoc
  · have hWin := h.resolve_left (not_not.mpr hLoc)
    exact readBytes_congr fun i h1 h2 => if_neg (by omega)
  · rfl

theorem read_write_self (s : ShimState) (w : Ptr) (data : List UInt8) :
    (s.write w data).read w data.length = data := by
  simp [read, write, readBytes_writeBytes]

/-- The block whose data starts at `p` is as the shim made it, header and storage. -/
structure Intact (s : ShimState) (p : Ptr) (size : Nat) : Prop where
  room : jsonrpcAllocHeaderBytes ≤ p.off
  header : s.read ⟨p.loc, p.off - jsonrpcAllocHeaderBytes⟩ 8 = jsonrpcAllocHeader p.loc.origin
  inArena : ∀ a, p.loc = .arena a → p.off + size ≤ (s.arenas a).index
  inHeap : ∀ b, p.loc = .heap b → p.off = jsonrpcAllocHeaderBytes ∧ b ∈ s.heap.live

theorem Intact.frame {s s' : ShimState} {p : Ptr} {size : Nat} (h : s.Intact p size)
    (hMem : s'.mem p.loc = s.mem p.loc)
    (hArena : ∀ a, p.loc = .arena a → (s.arenas a).index ≤ (s'.arenas a).index)
    (hHeap : ∀ b, p.loc = .heap b → b ∈ s.heap.live → b ∈ s'.heap.live) : s'.Intact p size :=
  ⟨h.room, by rw [← h.header]; simp only [read, hMem],
    fun a ha => (h.inArena a ha).trans (hArena a ha),
    fun b hb => ⟨(h.inHeap b hb).1, hHeap b hb (h.inHeap b hb).2⟩⟩

theorem Intact.write {s : ShimState} {p : Ptr} {size : Nat} (h : s.Intact p size) (w : Ptr)
    (data : List UInt8)
    (hMiss : p.loc ≠ w.loc ∨ p.off - jsonrpcAllocHeaderBytes + 8 ≤ w.off ∨
      w.off + data.length ≤ p.off - jsonrpcAllocHeaderBytes) :
    (s.write w data).Intact p size :=
  ⟨h.room, (@read_write_of_disjoint s w ⟨p.loc, p.off - jsonrpcAllocHeaderBytes⟩ data 8 hMiss).trans h.header, h.inArena,
    h.inHeap⟩

end ShimState

/-- `jsonrpc_arena_free` on an intact block calls the system `free` exactly for a `calloc` block. -/
theorem jsonrpcArenaFree_intact {s : ShimState} {p : Ptr} {size : Nat} (h : s.Intact p size) :
    jsonrpcArenaFree (some p) s = match p.loc with
      | .arena _ => s
      | .heap b => s.systemFree ⟨.heap b, 0⟩ := by
  obtain ⟨loc, off⟩ := p
  simp only [jsonrpcArenaFree, h.header, ofLeBytes_header_tag, ne_eq, not_true_eq_false,
    if_false, ofLeBytes_header_origin]
  cases loc with
  | arena a => rfl
  | heap b =>
    have hOff : off = jsonrpcAllocHeaderBytes := (h.inHeap b rfl).1
    simp only [Loc.origin, if_pos, hOff, Nat.sub_self]

/-- What the system allocator holds, and the pointers passed to `free` so far. -/
structure HeapInv (heap : Heap) (freed : List Ptr) : Prop where
  below : ∀ b ∈ heap.live, b < heap.next
  nodup : heap.live.Nodup
  freedHeap : ∀ x ∈ freed, ∃ b, x = ⟨.heap b, 0⟩ ∧ b < heap.next ∧ b ∉ heap.live
  freedNodup : freed.Nodup

theorem HeapInv.calloc {heap : Heap} {freed : List Ptr} (h : HeapInv heap freed) :
    HeapInv heap.calloc.2 freed ∧ (∀ b ∈ heap.live, b ∈ heap.calloc.2.live) ∧
      ∀ b, heap.calloc.1 = some b → b = heap.next ∧ heap.calloc.2.live = b :: heap.live := by
  unfold Heap.calloc
  split
  · exact ⟨⟨h.below, h.nodup, h.freedHeap, h.freedNodup⟩, fun _ hb => hb, fun _ hb => nomatch hb⟩
  · refine ⟨⟨fun b hb => ?_, ?_, fun x hx => ?_, h.freedNodup⟩, fun _ hb => List.mem_cons_of_mem _ hb,
      fun b hb => ?_⟩
    · rcases List.mem_cons.mp hb with rfl | hb
      · exact Nat.lt_succ_self _
      · exact Nat.lt_succ_of_lt (h.below b hb)
    · exact List.nodup_cons.mpr ⟨fun hm => Nat.lt_irrefl _ (h.below _ hm), h.nodup⟩
    · obtain ⟨b, rfl, hb, hNot⟩ := h.freedHeap x hx
      exact ⟨b, rfl, Nat.lt_succ_of_lt hb, by
        simp only [List.mem_cons, not_or]
        exact ⟨by omega, hNot⟩⟩
    · cases hb
      exact ⟨rfl, rfl⟩

theorem HeapInv.free {heap : Heap} {freed : List Ptr} (h : HeapInv heap freed) {b : Nat}
    (hb : b ∈ heap.live) : HeapInv (heap.free b) (freed ++ [⟨.heap b, 0⟩]) := by
  have hGone : b ∉ heap.live.erase b := h.nodup.not_mem_erase
  refine ⟨fun b' hb' => h.below b' (List.mem_of_mem_erase hb'), h.nodup.erase b,
    fun x hx => ?_, List.pairwise_append.mpr ⟨h.freedNodup, List.pairwise_singleton _ _, ?_⟩⟩
  · rcases List.mem_append.mp hx with hx | hx
    · obtain ⟨b', rfl, hLt, hNot⟩ := h.freedHeap x hx
      exact ⟨b', rfl, hLt, fun hm => hNot (List.mem_of_mem_erase hm)⟩
    · rw [List.mem_singleton.mp hx]
      exact ⟨b, rfl, h.below b hb, hGone⟩
  · intro x hx y hy hxy
    obtain ⟨b', rfl, -, hNot⟩ := h.freedHeap x hx
    rw [List.mem_singleton.mp hy] at hxy
    cases hxy
    exact hNot hb

theorem arenaAllocAligned_index_mono (a : Arena) (size alignment : Nat) :
    (arenaAllocAligned a size alignment).2 =
        { a with index := (arenaAllocAligned a size alignment).2.index } ∧
      a.index ≤ (arenaAllocAligned a size alignment).2.index := by
  rcases h : arenaAllocAligned a size alignment with ⟨_ | p, a'⟩
  · by_cases hIndex : a.index ≤ a.size
    · obtain ⟨hShape, hLe, -⟩ := arenaAllocAligned_none h hIndex
      exact ⟨hShape, hLe⟩
    · unfold arenaAllocAligned at h
      split at h
      · cases h; exact ⟨rfl, le_rfl⟩
      · split at h
        · cases h; exact ⟨rfl, le_rfl⟩
        · rw [if_pos (by omega)] at h
          cases h; exact ⟨rfl, le_rfl⟩
  · obtain ⟨r, i, -, -, hLe, -, -, rfl, -⟩ := arenaAllocAligned_some h
    exact ⟨rfl, by dsimp only; omega⟩

structure ShimState.Bumped (s s' : ShimState) : Prop where
  mem : s'.mem = s.mem
  current : s'.current = s.current
  heap : s'.heap = s.heap
  freed : s'.freed = s.freed
  index : ∀ a, (s.arenas a).index ≤ (s'.arenas a).index

theorem jsonrpcArenaTake_spec (totalSize : Nat) (s : ShimState) :
    s.Bumped (jsonrpcArenaTake totalSize s).2 ∧ ∀ raw, (jsonrpcArenaTake totalSize s).1 = some raw →
      ∃ a, s.current = some a ∧ raw.loc = .arena a ∧ (s.arenas a).index ≤ raw.off ∧
        raw.off + totalSize ≤ ((jsonrpcArenaTake totalSize s).2.arenas a).index := by
  unfold jsonrpcArenaTake
  cases hCur : s.current with
  | none => exact ⟨⟨rfl, rfl, rfl, rfl, fun _ => le_rfl⟩, fun _ h => nomatch h⟩
  | some a =>
    dsimp only
    have hBumped : ∀ arena : Arena, (s.arenas a).index ≤ arena.index →
        s.Bumped (s.setArena a arena) := fun arena hLe =>
      ⟨rfl, rfl, rfl, rfl, fun i => by
        simp only [ShimState.setArena_arenas]
        split_ifs with hi
        · exact hi ▸ hLe
        · exact le_rfl⟩
    rcases h : arenaAlloc (s.arenas a) totalSize with ⟨_ | p, arena⟩
    · have hAligned : arenaAllocAligned (s.arenas a) totalSize arenaDefaultAlignment =
          (none, arena) := h
      have hLe := (arenaAllocAligned_index_mono (s.arenas a) totalSize arenaDefaultAlignment).2
      rw [hAligned] at hLe
      exact ⟨hBumped arena hLe, fun _ h => nomatch h⟩
    · obtain ⟨r, i, hRegion, -, hI, -, rfl, rfl, -⟩ := arenaAllocAligned_some h
      refine ⟨hBumped _ (by dsimp only; omega), fun raw hRaw => ⟨a, rfl, ?_⟩⟩
      cases hRaw
      simp only [hRegion, Option.getD_some, Nat.add_sub_cancel_left, ShimState.setArena_arenas,
        if_pos rfl]
      exact ⟨trivial, hI, le_rfl⟩

/-- What the core and the JSON library do through the shim in a run of public calls. -/
inductive ShimProg
  | done
  | malloc (name size : Nat) (next : ShimProg)
  | write (name offset : Nat) (data : List UInt8) (next : ShimProg)
  | free (name : Nat) (next : ShimProg)
  | scope (arena : Option Nat) (body next : ShimProg)

def runShim : ShimProg → (Nat → Option Ptr) × ShimState → (Nat → Option Ptr) × ShimState
  | .done, st => st
  | .malloc name size next, (env, s) =>
    runShim next (fun n => if n = name then (jsonrpcArenaMalloc size s).1 else env n,
      (jsonrpcArenaMalloc size s).2)
  | .write name offset data next, (env, s) =>
    runShim next (env, match env name with
      | some p => s.write ⟨p.loc, p.off + offset⟩ data
      | none => s)
  | .free name next, (env, s) => runShim next (env, jsonrpcArenaFree (env name) s)
  | .scope arena body next, (env, s) =>
    runShim next ((runShim body (env, (s.scopeBegin arena).2)).1,
      (runShim body (env, (s.scopeBegin arena).2)).2.scopeEnd arena (s.scopeBegin arena).1)

structure LiveBlock where
  name : Nat
  size : Nat
  depth : Nat
  deriving DecidableEq

/-- The discipline of the core and the library; the result is the blocks held after. -/
def ShimProg.keeps : ShimProg → Nat → List LiveBlock → Option (List LiveBlock)
  | .done, _, live => some live
  | .malloc name size next, d, live =>
    if live.any (·.name = name) then none else next.keeps d (⟨name, size, d⟩ :: live)
  | .write name offset data next, d, live =>
    if live.any (fun b => b.name = name ∧ offset + data.length ≤ b.size) then next.keeps d live
    else none
  | .free name next, d, live =>
    if live.any (·.name = name) then next.keeps d (live.filter (·.name ≠ name)) else none
  | .scope _ body next, d, live =>
    match body.keeps (d + 1) live with
    | some after => if after.all (·.depth ≤ d) then next.keeps d after else none
    | none => none

def ShimProg.scopes : ShimProg → ScopeTree
  | .done => .done
  | .malloc _ _ next | .write _ _ _ next | .free _ next => next.scopes
  | .scope arena body next => .scope arena body.scopes next.scopes

def Separate : Option Ptr → Nat → Option Ptr → Nat → Prop
  | some p, size, some q, size' =>
    p.loc ≠ q.loc ∨ p.off + size + jsonrpcAllocHeaderBytes ≤ q.off ∨
      q.off + size' + jsonrpcAllocHeaderBytes ≤ p.off
  | _, _, _, _ => True

theorem Separate.symm {p q : Option Ptr} {size size' : Nat} (h : Separate p size q size') :
    Separate q size' p size := by
  cases p <;> cases q
  all_goals first | trivial | exact Or.imp Ne.symm Or.symm h

/-- A run inside open scopes bound to `E`, innermost first, holding intact and separate blocks. -/
structure ShimInv (E : List (Option Nat)) (live : List LiveBlock) (env : Nat → Option Ptr)
    (s : ShimState) : Prop where
  current : s.current = E.headD none
  heap : HeapInv s.heap s.freed
  intact : ∀ x ∈ live, ∀ p, env x.name = some p → s.Intact p x.size
  separate : ∀ x ∈ live, ∀ y ∈ live, x ≠ y → Separate (env x.name) x.size (env y.name) y.size
  depth_le : ∀ x ∈ live, x.depth ≤ E.length
  bound : ∀ x ∈ live, ∀ a off, env x.name = some ⟨.arena a, off⟩ →
    some a ∈ E.drop (E.length - x.depth)

section
variable {E : List (Option Nat)} {live : List LiveBlock} {env : Nat → Option Ptr} {s : ShimState}

theorem ShimInv.mono {live' : List LiveBlock} (h : ShimInv E live env s)
    (hSub : ∀ x ∈ live', x ∈ live) : ShimInv E live' env s :=
  ⟨h.current, h.heap, fun x hx => h.intact x (hSub x hx),
    fun x hx y hy => h.separate x (hSub x hx) y (hSub y hy), fun x hx => h.depth_le x (hSub x hx),
    fun x hx => h.bound x (hSub x hx)⟩

theorem ShimInv.bumped {s' : ShimState} (h : ShimInv E live env s) (hB : s.Bumped s') :
    ShimInv E live env s' :=
  { h with
    current := hB.current.trans h.current
    heap := hB.heap ▸ hB.freed ▸ h.heap
    intact := fun x hx p hp => (h.intact x hx p hp).frame (by rw [hB.mem])
      (fun a _ => hB.index a) fun _ _ hb => hB.heap ▸ hb }

theorem ShimInv.push (h : ShimInv E live env s) {name size : Nat} {q : Option Ptr}
    (hFresh : ∀ x ∈ live, x.name ≠ name) (hIntact : ∀ p, q = some p → s.Intact p size)
    (hSep : ∀ x ∈ live, Separate q size (env x.name) x.size)
    (hBound : ∀ a off, q = some ⟨.arena a, off⟩ → some a ∈ E) :
    ShimInv E (⟨name, size, E.length⟩ :: live) (fun n => if n = name then q else env n) s := by
  have hOld : ∀ x ∈ live, (if x.name = name then q else env x.name) = env x.name :=
    fun x hx => if_neg (hFresh x hx)
  refine ⟨h.current, h.heap, fun x hx p hp => ?_, fun x hx y hy hxy => ?_, fun x hx => ?_,
    fun x hx a off hp => ?_⟩
  · rcases List.mem_cons.mp hx with rfl | hx
    · exact hIntact p (by simpa using hp)
    · exact h.intact x hx p ((hOld x hx).symm.trans hp)
  · rcases List.mem_cons.mp hx with rfl | hx <;> rcases List.mem_cons.mp hy with rfl | hy
    · exact absurd rfl hxy
    · simpa only [if_pos rfl, hOld y hy] using hSep y hy
    · simpa only [if_pos rfl, hOld x hx] using (hSep x hx).symm
    · simpa only [hOld x hx, hOld y hy] using h.separate x hx y hy hxy
  · rcases List.mem_cons.mp hx with rfl | hx
    · exact le_rfl
    · exact h.depth_le x hx
  · rcases List.mem_cons.mp hx with rfl | hx
    · simpa using hBound a off (by simpa using hp)
    · exact h.bound x hx a off ((hOld x hx).symm.trans hp)

theorem mem_of_headD_eq_some {E : List (Option Nat)} {a : Nat} (h : E.headD none = some a) :
    some a ∈ E := by
  cases E with
  | nil => cases h
  | cons c E => exact h ▸ List.mem_cons_self _ _

theorem ShimInv.pushHeapBlock (h : ShimInv E live env s) {name size : Nat}
    (hFresh : ∀ x ∈ live, x.name ≠ name) {b : Nat} {heap : Heap}
    (hCalloc : s.heap.calloc = (some b, heap)) :
    ShimInv E (⟨name, size, E.length⟩ :: live)
      (fun n => if n = name then some ⟨.heap b, jsonrpcAllocHeaderBytes⟩ else env n)
      (({ s with heap, mem := fun l => if l = Loc.heap b then fun _ => 0 else s.mem l }).write
        ⟨.heap b, 0⟩ (jsonrpcAllocHeader jsonrpcAllocOriginHeap)) := by
  obtain ⟨hHeap, hKeep, hNew⟩ := h.heap.calloc
  rw [hCalloc] at hHeap hKeep hNew
  obtain ⟨rfl, hLive⟩ := hNew b rfl
  have hOther : ∀ x ∈ live, ∀ p, env x.name = some p → p.loc ≠ .heap s.heap.next :=
    fun x hx p hp hLoc => Nat.lt_irrefl _ (h.heap.below _ ((h.intact x hx p hp).inHeap _ hLoc).2)
  refine ShimInv.push ?_ hFresh (fun p hp => ?_) (fun x hx => ?_) fun _ _ hp => by cases hp
  · exact { h with
      heap := hHeap
      intact := fun x hx p hp => (h.intact x hx p hp).frame
        (by simp only [ShimState.write, if_neg (hOther x hx p hp)])
        (fun _ _ => le_rfl) fun b _ hb => hKeep b hb }
  · cases hp
    refine ⟨le_rfl, ?_, (fun _ hLoc => nomatch hLoc), fun _ hLoc => ?_⟩
    · simpa only [Nat.sub_self] using ShimState.read_write_self _ ⟨.heap s.heap.next, 0⟩
        (jsonrpcAllocHeader jsonrpcAllocOriginHeap)
    · cases hLoc
      exact ⟨rfl, hLive ▸ List.mem_cons_self _ _⟩
  · cases hp : env x.name with
    | none => trivial
    | some p => exact .inl (hOther x hx p hp).symm

theorem ShimInv.pushArenaBlock (h : ShimInv E live env s) {s' : ShimState} (hB : s.Bumped s')
    {name size a off : Nat} (hFresh : ∀ x ∈ live, x.name ≠ name) (hCur : s.current = some a)
    (hFrom : (s.arenas a).index ≤ off)
    (hTo : off + (size + jsonrpcAllocHeaderBytes) ≤ (s'.arenas a).index) :
    ShimInv E (⟨name, size, E.length⟩ :: live)
      (fun n => if n = name then some ⟨.arena a, off + jsonrpcAllocHeaderBytes⟩ else env n)
      (s'.write ⟨.arena a, off⟩ (jsonrpcAllocHeader jsonrpcAllocOriginArena)) := by
  have hH : jsonrpcAllocHeaderBytes = 16 := rfl
  have hBelow : ∀ x ∈ live, ∀ p, env x.name = some p → p.loc = .arena a →
      p.off + x.size ≤ off := fun x hx p hp hLoc =>
    ((h.intact x hx p hp).inArena a hLoc).trans hFrom
  have h' := h.bumped hB
  refine ShimInv.push ?_ hFresh (fun p hp => ?_) (fun x hx => ?_) fun a' off' hp => ?_
  · refine { h' with intact := fun x hx p hp => (h'.intact x hx p hp).write _ _ ?_ }
    by_cases hLoc : p.loc = .arena a
    · have := hBelow x hx p hp hLoc
      have := (h.intact x hx p hp).room
      exact .inr (.inl (by dsimp only; omega))
    · exact .inl hLoc
  · cases hp
    refine ⟨Nat.le_add_left _ _, ?_, fun a' hLoc => ?_, fun _ hLoc => nomatch hLoc⟩
    · simpa only [Nat.add_sub_cancel] using ShimState.read_write_self s' ⟨.arena a, off⟩
        (jsonrpcAllocHeader jsonrpcAllocOriginArena)
    · cases hLoc
      simp only [ShimState.write_arenas]
      omega
  · cases hp : env x.name with
    | none => trivial
    | some p =>
      by_cases hLoc : p.loc = .arena a
      · have := hBelow x hx p hp hLoc
        exact .inr (.inr (by dsimp only; omega))
      · exact .inl fun hEq => hLoc hEq.symm
  · cases hp
    exact mem_of_headD_eq_some (h.current.symm.trans hCur)

theorem ShimInv.malloc (h : ShimInv E live env s) {name : Nat} (size : Nat)
    (hFresh : ∀ x ∈ live, x.name ≠ name) :
    ShimInv E (⟨name, size, E.length⟩ :: live)
      (fun n => if n = name then (jsonrpcArenaMalloc size s).1 else env n)
      (jsonrpcArenaMalloc size s).2 := by
  have hNone : ∀ {s'}, ShimInv E live env s' →
      ShimInv E (⟨name, size, E.length⟩ :: live) (fun n => if n = name then none else env n) s' :=
    fun h' => h'.push hFresh (fun _ hp => nomatch hp) (fun _ _ => trivial) fun _ _ hp => nomatch hp
  unfold jsonrpcArenaMalloc
  by_cases hZero : size = 0
  · rw [if_pos hZero]
    exact hNone h
  rw [if_neg hZero]
  by_cases hBig : size > sizeMax - jsonrpcAllocHeaderBytes
  · rw [if_pos hBig]
    exact hNone h
  rw [if_neg hBig]
  dsimp only
  obtain ⟨hBumped, hBlock⟩ := jsonrpcArenaTake_spec (size + jsonrpcAllocHeaderBytes) s
  rcases hTake : jsonrpcArenaTake (size + jsonrpcAllocHeaderBytes) s with ⟨_ | raw, s1⟩
  · -- the arena gave nothing: `calloc`
    rw [hTake] at hBumped
    dsimp only
    have h1 := h.bumped hBumped
    rcases hCalloc : s1.heap.calloc with ⟨_ | b, heap⟩
    · obtain ⟨hHeap, hKeep, -⟩ := h1.heap.calloc
      rw [hCalloc] at hHeap hKeep
      exact hNone { h1 with
        heap := hHeap
        intact := fun x hx p hp => (h1.intact x hx p hp).frame rfl (fun _ _ => le_rfl)
          fun b _ hb => hKeep b hb }
    · exact h1.pushHeapBlock hFresh hCalloc
  · obtain ⟨a, hCur, hLoc, hFrom, hTo⟩ := hBlock raw (by rw [hTake])
    rw [hTake] at hBumped hTo
    obtain ⟨loc, off⟩ := raw
    dsimp only at hLoc hFrom hTo ⊢
    subst hLoc
    exact h.pushArenaBlock hBumped hFresh hCur hFrom hTo

theorem ShimInv.write (h : ShimInv E live env s) {x : LiveBlock} (hx : x ∈ live) {offset : Nat}
    {data : List UInt8} (hFits : offset + data.length ≤ x.size) :
    ShimInv E live env (match env x.name with
      | some p => s.write ⟨p.loc, p.off + offset⟩ data
      | none => s) := by
  have hH : jsonrpcAllocHeaderBytes = 16 := rfl
  cases hp : env x.name with
  | none => exact h
  | some p =>
    refine { h with intact := fun y hy q hq => (h.intact y hy q hq).write _ _ ?_ }
    have hRoom := (h.intact x hx p hp).room
    by_cases hxy : y = x
    · subst hxy
      cases hp.symm.trans hq
      exact .inr (.inl (by dsimp only; omega))
    · have hSep := h.separate x hx y hy (Ne.symm hxy)
      rw [hp, hq] at hSep
      rcases hSep with hLoc | hSep | hSep
      · exact .inl (Ne.symm hLoc)
      · exact .inr (.inr (by dsimp only; omega))
      · exact .inr (.inl (by dsimp only; omega))

theorem ShimInv.free (h : ShimInv E live env s) {x : LiveBlock} (hx : x ∈ live) :
    ShimInv E (live.filter (·.name ≠ x.name)) env (jsonrpcArenaFree (env x.name) s) := by
  have hH : jsonrpcAllocHeaderBytes = 16 := rfl
  have hSub : ∀ y ∈ live.filter (·.name ≠ x.name), y ∈ live := fun y hy => List.mem_of_mem_filter hy
  cases hp : env x.name with
  | none => exact h.mono hSub
  | some p =>
    have hIntact := h.intact x hx p hp
    rw [jsonrpcArenaFree_intact hIntact]
    obtain ⟨loc, off⟩ := p
    cases loc with
    | arena a => exact h.mono hSub
    | heap b =>
      obtain ⟨hOff, hb⟩ := hIntact.inHeap b rfl
      refine ⟨h.current, h.heap.free hb, fun y hy q hq => ?_, fun y hy z hz =>
        h.separate y (hSub y hy) z (hSub z hz), fun y hy => h.depth_le y (hSub y hy),
        fun y hy => h.bound y (hSub y hy)⟩
      obtain ⟨hy, hName⟩ := List.mem_filter.mp hy
      refine (h.intact y hy q hq).frame rfl (fun _ _ => le_rfl) fun b' hLoc hb' => ?_
      -- the freed block is no other held block's
      have hne : b' ≠ b := by
        rintro rfl
        have hyx : y ≠ x := by rintro rfl; simp at hName
        have hSep := h.separate y hy x hx hyx
        rw [hq, hp] at hSep
        have hq' := ((h.intact y hy q hq).inHeap b' hLoc).1
        rcases hSep with hL | hS | hS
        · exact hL (hLoc.trans rfl)
        · dsimp only at hS hOff; omega
        · dsimp only at hS hOff; omega
      exact (List.mem_erase_of_ne hne).mpr hb'

theorem ShimInv.scopeBegin (h : ShimInv E live env s) (arena : Option Nat) :
    ShimInv ((jsonrpcArenaScopeBegin s.current arena).2 :: E) live env (s.scopeBegin arena).2 :=
  ⟨rfl, h.heap, fun x hx p hp => (h.intact x hx p hp).frame rfl (fun _ _ => le_rfl) fun _ _ hb => hb,
    h.separate, fun x hx => (h.depth_le x hx).trans (Nat.le_succ _), fun x hx a off hp => by
      rw [List.length_cons, Nat.sub_add_comm (h.depth_le x hx), List.drop_succ_cons]
      exact h.bound x hx a off hp⟩

/-- A `scope_end` keeps the invariant when no enclosing open scope binds the arena it clears. -/
theorem ShimInv.scopeEnd {c : Option Nat} (h : ShimInv (c :: E) live env s) (arena : Option Nat)
    (scope : JsonrpcArenaScope) (hDepth : ∀ x ∈ live, x.depth ≤ E.length)
    (hRestore : (jsonrpcArenaScopeEnd s.current arena scope).1 = E.headD none)
    (hNest : ∀ a, (jsonrpcArenaScopeEnd s.current arena scope).2 = some a → some a ∉ E) :
    ShimInv E live env (s.scopeEnd arena scope) := by
  have hBound : ∀ x ∈ live, ∀ a off, env x.name = some ⟨.arena a, off⟩ →
      some a ∈ E.drop (E.length - x.depth) := by
    intro x hx a off hp
    have := h.bound x hx a off hp
    rwa [List.length_cons, Nat.sub_add_comm (hDepth x hx), List.drop_succ_cons] at this
  unfold ShimState.scopeEnd
  split
  · rename_i a hClear
    refine ⟨hRestore, h.heap, fun x hx p hp => (h.intact x hx p hp).frame rfl ?_ fun _ _ hb => hb,
      h.separate, hDepth, hBound⟩
    intro a' hLoc
    obtain ⟨loc, off⟩ := p
    dsimp only at hLoc
    subst hLoc
    have hne : a' ≠ a := fun e => hNest a hClear (e ▸ List.mem_of_mem_drop (hBound x hx a' off hp))
    simp only [ShimState.setArena_arenas, if_neg hne, le_rfl]
  · exact ⟨hRestore, h.heap, fun x hx p hp => (h.intact x hx p hp).frame rfl (fun _ _ => le_rfl)
      fun _ _ hb => hb, h.separate, hDepth, hBound⟩

end

theorem runShim_inv (prog : ShimProg) {E : List (Option Nat)} {live after : List LiveBlock}
    {env : Nat → Option Ptr} {s : ShimState} (h : ShimInv E live env s)
    (hKeeps : prog.keeps E.length live = some after)
    (hNest : ∀ c ∈ (runScopes E prog.scopes (E.headD none)).2, some c.1 ∉ c.2) :
    ShimInv E after (runShim prog (env, s)).1 (runShim prog (env, s)).2 := by
  induction prog generalizing E live after env s with
  | done =>
    cases hKeeps
    exact h
  | malloc name size next ih =>
    simp only [ShimProg.keeps] at hKeeps
    split_ifs at hKeeps with hAny
    have hFresh : ∀ x ∈ live, x.name ≠ name := by simpa using hAny
    exact ih (h.malloc size hFresh) hKeeps hNest
  | write name offset data next ih =>
    simp only [ShimProg.keeps] at hKeeps
    split_ifs at hKeeps with hAny
    obtain ⟨x, hx, rfl, hFits⟩ : ∃ x ∈ live, x.name = name ∧ offset + data.length ≤ x.size := by
      simpa using hAny
    exact ih (h.write hx hFits) hKeeps hNest
  | free name next ih =>
    simp only [ShimProg.keeps] at hKeeps
    split_ifs at hKeeps with hAny
    obtain ⟨x, hx, rfl⟩ : ∃ x ∈ live, x.name = name := by simpa using hAny
    exact ih (h.free hx) hKeeps hNest
  | scope arena body next ihBody ihNext =>
    simp only [ShimProg.keeps] at hKeeps
    split at hKeeps
    · rename_i mid hMid
      split_ifs at hKeeps with hAll
      have hDepth : ∀ x ∈ mid, x.depth ≤ E.length := by simpa using hAll
      simp only [ShimProg.scopes, runScopes_scope_clears, List.mem_append] at hNest
      rw [← h.current] at hNest
      have hBody := ihBody (h.scopeBegin arena) hMid fun c hc => hNest c (.inl (.inl hc))
      have hCur : (runShim body (env, (s.scopeBegin arena).2)).2.current =
          (jsonrpcArenaScopeBegin s.current arena).2 := hBody.current
      refine ihNext (hBody.scopeEnd arena _ hDepth ?_ fun a hClear => ?_) hKeeps
        fun c hc => hNest c (.inr (h.current ▸ hc))
      · rw [hCur]
        exact (jsonrpcArenaScopeEnd_begin s.current arena).trans h.current
      · rw [hCur] at hClear
        have hCleared : (jsonrpcArenaScopeEnd (jsonrpcArenaScopeBegin s.current arena).2 arena
            (jsonrpcArenaScopeBegin s.current arena).1).2 = some a := hClear
        exact hNest (a, E) (.inl (.inr (by simp only [hCleared, Option.map_some',
          Option.toList_some, List.mem_singleton])))
    · cases hKeeps

/-- A disciplined run whose scope ends clear no open arena frees only `calloc` blocks, each once. -/
theorem runShim_frees_only_calloc_blocks (prog : ShimProg) (env : Nat → Option Ptr)
    (s : ShimState) {after : List LiveBlock} (hKeeps : prog.keeps 0 [] = some after)
    (hNest : ∀ c ∈ (runScopes [] prog.scopes none).2, some c.1 ∉ c.2)
    (hCurrent : s.current = none) (hHeap : s.heap.live = []) (hFreed : s.freed = []) :
    (runShim prog (env, s)).2.freed.Nodup ∧
      (∀ x ∈ (runShim prog (env, s)).2.freed,
        ∃ b, x = ⟨.heap b, 0⟩ ∧ b < (runShim prog (env, s)).2.heap.next) ∧
      ∀ x ∈ after, ∀ p, (runShim prog (env, s)).1 x.name = some p →
        (runShim prog (env, s)).2.Intact p x.size := by
  have h0 : ShimInv [] [] env s :=
    ⟨hCurrent, ⟨by simp [hHeap], by simp [hHeap], by simp [hFreed], by simp [hFreed]⟩,
      by simp, by simp, by simp, by simp⟩
  have h := runShim_inv prog h0 hKeeps hNest
  exact ⟨h.heap.freedNodup, fun x hx => (h.heap.freedHeap x hx).imp fun _ hb => ⟨hb.1, hb.2.1⟩,
    h.intact⟩

theorem runShim_without_reentry_frees_only_calloc_blocks (prog : ShimProg)
    (env : Nat → Option Ptr) (s : ShimState) {after : List LiveBlock}
    (hKeeps : prog.keeps 0 [] = some after) (hReentry : prog.scopes.reentryFree [] none = true)
    (hCurrent : s.current = none) (hHeap : s.heap.live = []) (hFreed : s.freed = []) :
    (runShim prog (env, s)).2.freed.Nodup ∧
      (∀ x ∈ (runShim prog (env, s)).2.freed,
        ∃ b, x = ⟨.heap b, 0⟩ ∧ b < (runShim prog (env, s)).2.heap.next) ∧
      ∀ x ∈ after, ∀ p, (runShim prog (env, s)).1 x.name = some p →
        (runShim prog (env, s)).2.Intact p x.size :=
  runShim_frees_only_calloc_blocks prog env s hKeeps
    (runScopes_reentryFree_clears prog.scopes [] [] none (by simp) hReentry) hCurrent hHeap hFreed

theorem runShim_without_reentry_feed_send :
    (ShimProg.malloc 0 8 (.scope (some 0) (.malloc 1 16 (.scope (some 1)
        (.malloc 2 8 (.free 2 .done)) (.free 1 .done))) (.free 0 .done))).keeps 0 [] = some [] ∧
      (ShimProg.malloc 0 8 (.scope (some 0) (.malloc 1 16 (.scope (some 1)
        (.malloc 2 8 (.free 2 .done)) (.free 1 .done))) (.free 0 .done))).scopes.reentryFree [] none =
        true ∧
      (runShim (.malloc 0 8 (.scope (some 0) (.malloc 1 16 (.scope (some 1)
          (.malloc 2 8 (.free 2 .done)) (.free 1 .done))) (.free 0 .done)))
        (fun _ => none, ⟨fun i => ⟨some (65536 * (i + 1)), fun _ => 0, 0, 1024⟩, none, ⟨[], 0, []⟩,
          fun _ _ => 0, []⟩)).2.freed.Nodup ∧
      (∀ x ∈ (runShim (.malloc 0 8 (.scope (some 0) (.malloc 1 16 (.scope (some 1)
          (.malloc 2 8 (.free 2 .done)) (.free 1 .done))) (.free 0 .done)))
        (fun _ => none, ⟨fun i => ⟨some (65536 * (i + 1)), fun _ => 0, 0, 1024⟩, none, ⟨[], 0, []⟩,
          fun _ _ => 0, []⟩)).2.freed,
        ∃ b, x = ⟨.heap b, 0⟩ ∧ b < (runShim (.malloc 0 8 (.scope (some 0) (.malloc 1 16
          (.scope (some 1) (.malloc 2 8 (.free 2 .done)) (.free 1 .done))) (.free 0 .done)))
          (fun _ => none, ⟨fun i => ⟨some (65536 * (i + 1)), fun _ => 0, 0, 1024⟩, none,
            ⟨[], 0, []⟩, fun _ _ => 0, []⟩)).2.heap.next) ∧
      ∀ x ∈ ([] : List LiveBlock), ∀ p, (runShim (.malloc 0 8 (.scope (some 0) (.malloc 1 16
          (.scope (some 1) (.malloc 2 8 (.free 2 .done)) (.free 1 .done))) (.free 0 .done)))
          (fun _ => none, ⟨fun i => ⟨some (65536 * (i + 1)), fun _ => 0, 0, 1024⟩, none,
            ⟨[], 0, []⟩, fun _ _ => 0, []⟩)).1 x.name = some p →
        (runShim (.malloc 0 8 (.scope (some 0) (.malloc 1 16 (.scope (some 1)
          (.malloc 2 8 (.free 2 .done)) (.free 1 .done))) (.free 0 .done)))
          (fun _ => none, ⟨fun i => ⟨some (65536 * (i + 1)), fun _ => 0, 0, 1024⟩, none,
            ⟨[], 0, []⟩, fun _ _ => 0, []⟩)).2.Intact p x.size :=
  ⟨by decide, rfl, runShim_without_reentry_frees_only_calloc_blocks _ _ _ (by decide) rfl rfl rfl rfl⟩

/-- Freeing a `calloc` block reaches the system `free`; freeing an arena block does not. -/
example :
    (runShim (.malloc 0 8 (.scope (some 0) (.malloc 1 8 (.free 1 (.free 0 .done))) .done))
      (fun _ => none, ⟨fun i => ⟨some (65536 * (i + 1)), fun _ => 0, 0, 1024⟩, none, ⟨[], 0, []⟩,
        fun _ _ => 0, []⟩)).2.freed = [⟨.heap 0, 0⟩] := by
  decide

/-- A nested `send_result(A)` clears arena 0 under `A`'s epoch and overwrites a live header. -/
theorem jsonrpcArenaFree_frees_arena_block :
    (ShimProg.scope (some 0)
      (.malloc 0 16 (.free 0 (.malloc 1 16
        (.scope (some 1) (.scope (some 0) (.malloc 2 8 (.free 2 .done)) .done)
        (.malloc 3 48 (.write 3 16 [0x43, 0x50, 0x52, 0x4A, 2, 0, 0, 0]
        (.free 3 (.free 1 .done))))))))
      .done).keeps 0 [] = some [] ∧
    (0, [some 1, some 0]) ∈ (runScopes [] (ShimProg.scope (some 0)
      (.malloc 0 16 (.free 0 (.malloc 1 16
        (.scope (some 1) (.scope (some 0) (.malloc 2 8 (.free 2 .done)) .done)
        (.malloc 3 48 (.write 3 16 [0x43, 0x50, 0x52, 0x4A, 2, 0, 0, 0]
        (.free 3 (.free 1 .done))))))))
      .done).scopes none).2 ∧
    (runShim (.scope (some 0)
      (.malloc 0 16 (.free 0 (.malloc 1 16
        (.scope (some 1) (.scope (some 0) (.malloc 2 8 (.free 2 .done)) .done)
        (.malloc 3 48 (.write 3 16 [0x43, 0x50, 0x52, 0x4A, 2, 0, 0, 0]
        (.free 3 (.free 1 .done))))))))
      .done)
      (fun _ => none, ⟨fun i => ⟨some (65536 * (i + 1)), fun _ => 0, 0, 1024⟩, none, ⟨[], 0, []⟩,
        fun _ _ => 0, []⟩)).2.freed = [⟨.arena 0, 32⟩] := by
  decide

end JsonRpc
