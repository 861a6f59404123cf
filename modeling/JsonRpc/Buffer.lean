import Mathlib.Data.List.Basic
import Mathlib.Algebra.Group.Nat.Basic

/-! # The inbound byte buffer

`rpc_buffer_t` keeps `len` meaningful bytes at the front of a block of `cap` bytes from
the system allocator. A block is a map from offsets to bytes, so `memcpy` and `memmove`
are written over offsets as in the source; the heap records which blocks are live, for
the accounting of `rpc_buffer_reserve`. Lengths are `size_t`: a sum that may wrap is
taken modulo `2 ^ 64`.

A regrowth leaks the old block only when the buffer was emptied, and each regrowth at least
doubles the capacity, from `INITIAL_BUFFER_CAP` up to `MAX_BUFFER_BYTES = 4096 * 2 ^ 9`: a
buffer leaks at most nine blocks between its creation and `rpc_buffer_free`.
-/

namespace JsonRpc
set_option autoImplicit false

def sizeMax : Nat := 2 ^ 64 - 1
def initialBufferCap : Nat := 4096
def maxMessageBytes : Nat := 1048576
def maxBufferBytes : Nat := 2097152

/-- The system allocator: live blocks, the next fresh block, the coming `calloc` outcomes. -/
structure Heap where
  live : List Nat
  next : Nat
  faults : List Bool

def Heap.calloc (h : Heap) : Option Nat × Heap :=
  match h.faults with
  | true :: faults => (none, { h with faults })
  | _ => (some h.next, { live := h.next :: h.live, next := h.next + 1, faults := h.faults.tail })

def Heap.free (h : Heap) (block : Nat) : Heap := { h with live := h.live.erase block }

theorem Heap.calloc_cases (h : Heap) :
    (h.faults.head? = some true ∧ h.calloc = (none, { h with faults := h.faults.tail })) ∨
      (h.faults.head? ≠ some true ∧
        h.calloc = (some h.next, ⟨h.next :: h.live, h.next + 1, h.faults.tail⟩)) := by
  unfold Heap.calloc
  split
  · rename_i faults hFaults
    exact .inl ⟨by simp [hFaults], by simp [hFaults]⟩
  · rename_i hFaults
    refine .inr ⟨fun hHead => ?_, rfl⟩
    obtain ⟨faults, hCons⟩ := List.head?_eq_some_iff.mp hHead
    exact hFaults faults hCons

def writeBytes (mem : Nat → UInt8) (off : Nat) (data : List UInt8) : Nat → UInt8 :=
  fun i => if off ≤ i ∧ i < off + data.length then data.getD (i - off) 0 else mem i

def readBytes (mem : Nat → UInt8) (off : Nat) : Nat → List UInt8
  | 0 => []
  | n + 1 => mem off :: readBytes mem (off + 1) n

structure RpcBuffer where
  data : Option Nat
  mem : Nat → UInt8
  len : Nat
  cap : Nat

def RpcBuffer.bytes (b : RpcBuffer) : List UInt8 := readBytes b.mem 0 b.len

def RpcBuffer.empty : RpcBuffer := ⟨none, fun _ => 0, 0, 0⟩

def rpcBufferFree (b : RpcBuffer) (h : Heap) : RpcBuffer × Heap :=
  match b.data with
  | some block => ({ b with data := none, len := 0, cap := 0 }, h.free block)
  | none => ({ b with len := 0, cap := 0 }, h)

/-- `while (new_cap < desired) new_cap *= 2;` in `size_t`; `none` is a loop out of fuel. -/
def growCapacity : Nat → Nat → Nat → Option Nat
  | 0, _, _ => none
  | fuel + 1, newCap, desired =>
    if newCap < desired then growCapacity fuel (newCap * 2 % 2 ^ 64) desired else some newCap

def rpcBufferReserve (b : RpcBuffer) (h : Heap) (desired : Nat) : Bool × RpcBuffer × Heap :=
  if desired ≤ b.cap then (true, b, h)
  else
    match growCapacity 64 (if b.cap = 0 then initialBufferCap else b.cap) desired with
    | none => (false, b, h)
    | some newCap =>
      match h.calloc with
      | (none, h) => (false, b, h)
      | (some block, h) =>
        match b.data with
        | some old =>
          if 0 < b.len then
            (true, ⟨some block, fun i => if i < b.len then b.mem i else 0, b.len, newCap⟩,
              h.free old)
          else (true, ⟨some block, fun _ => 0, b.len, newCap⟩, h)
        | none => (true, ⟨some block, fun _ => 0, b.len, newCap⟩, h)

def rpcBufferAppend (b : RpcBuffer) (h : Heap) (data : List UInt8) : Bool × RpcBuffer × Heap :=
  if data.length = 0 then (true, b, h)
  else
    let required := (b.len + data.length) % 2 ^ 64
    if required > maxBufferBytes then (false, b, h)
    else
      match rpcBufferReserve b h required with
      | (false, b, h) => (false, b, h)
      | (true, b, h) => (true, { b with mem := writeBytes b.mem b.len data, len := required }, h)

def rpcBufferConsume (b : RpcBuffer) (count : Nat) : RpcBuffer :=
  if count = 0 ∨ b.len < count then b
  else
    let remaining := b.len - count
    { b with
      mem := if 0 < remaining then fun i => if i < remaining then b.mem (i + count) else b.mem i
        else b.mem
      len := remaining }

@[simp] theorem readBytes_length (mem : Nat → UInt8) (off n : Nat) :
    (readBytes mem off n).length = n := by
  induction n generalizing off with
  | zero => rfl
  | succ n ih => simp [readBytes, ih]

theorem readBytes_congr {mem mem' : Nat → UInt8} {off n : Nat}
    (h : ∀ i, off ≤ i → i < off + n → mem i = mem' i) : readBytes mem off n = readBytes mem' off n := by
  induction n generalizing off with
  | zero => rfl
  | succ n ih =>
    simp only [readBytes, h off (Nat.le_refl _) (by omega), List.cons.injEq, true_and]
    exact ih fun i h1 h2 => h i (by omega) (by omega)

theorem readBytes_add (mem : Nat → UInt8) (off a b : Nat) :
    readBytes mem off (a + b) = readBytes mem off a ++ readBytes mem (off + a) b := by
  induction a generalizing off with
  | zero => simp [readBytes]
  | succ a ih =>
    rw [Nat.add_right_comm, readBytes, readBytes, ih, Nat.add_right_comm off 1 a]
    rfl

theorem readBytes_writeBytes (mem : Nat → UInt8) (off : Nat) (data : List UInt8) :
    readBytes (writeBytes mem off data) off data.length = data := by
  induction data generalizing off mem with
  | nil => rfl
  | cons x xs ih =>
    have hTail : readBytes (writeBytes mem off (x :: xs)) (off + 1) xs.length =
        readBytes (writeBytes mem (off + 1) xs) (off + 1) xs.length := by
      apply readBytes_congr
      intro i h1 h2
      have hi : i - off = (i - (off + 1)) + 1 := by omega
      simp only [writeBytes, List.length_cons, hi, List.getD_cons_succ]
      rw [if_pos (by omega), if_pos (by omega)]
    simp only [List.length_cons, readBytes, hTail, ih]
    simp [writeBytes]

theorem readBytes_shift (mem : Nat → UInt8) (c off n : Nat) :
    readBytes (fun i => mem (i + c)) off n = readBytes mem (off + c) n := by
  induction n generalizing off with
  | zero => rfl
  | succ n ih => simp only [readBytes, ih, Nat.add_right_comm off 1 c]

theorem readBytes_getElem? (mem : Nat → UInt8) (off n i : Nat) :
    (readBytes mem off n)[i]? = if i < n then some (mem (off + i)) else none := by
  induction n generalizing off i with
  | zero => simp [readBytes]
  | succ n ih =>
    cases i with
    | zero => simp [readBytes]
    | succ i => simp [readBytes, ih, Nat.add_right_comm off 1 i, Nat.add_assoc]

theorem RpcBuffer.readBytes_eq_take (b : RpcBuffer) {k : Nat} (hk : k ≤ b.len) :
    readBytes b.mem 0 k = b.bytes.take k := by
  have h := readBytes_add b.mem 0 k (b.len - k)
  rw [Nat.add_sub_cancel' hk] at h
  rw [RpcBuffer.bytes, h, List.take_left' (readBytes_length _ _ _)]

theorem RpcBuffer.mem_eq_getElem? (b : RpcBuffer) {i : Nat} (hi : i < b.len) :
    some (b.mem i) = b.bytes[i]? := by
  rw [RpcBuffer.bytes, readBytes_getElem?, if_pos hi, Nat.zero_add]

theorem bytes_append_write (b : RpcBuffer) (data : List UInt8) :
    readBytes (writeBytes b.mem b.len data) 0 (b.len + data.length) = b.bytes ++ data := by
  rw [readBytes_add, Nat.zero_add, readBytes_writeBytes, RpcBuffer.bytes]
  congr 1
  exact readBytes_congr fun i _ h => by simp [writeBytes, show ¬ b.len ≤ i by omega]

theorem rpcBufferConsume_bytes (b : RpcBuffer) (count : Nat) :
    (rpcBufferConsume b count).bytes =
      if count = 0 ∨ b.len < count then b.bytes else b.bytes.drop count := by
  unfold rpcBufferConsume
  split
  · rfl
  · rename_i hCount
    have hDrop : b.bytes.drop count = readBytes b.mem count (b.len - count) := by
      have h := readBytes_add b.mem 0 count (b.len - count)
      rw [Nat.add_sub_cancel' (by omega)] at h
      rw [RpcBuffer.bytes, h, List.drop_left' (readBytes_length _ _ _), Nat.zero_add]
    rw [hDrop, RpcBuffer.bytes]
    dsimp only
    split
    · rw [← Nat.zero_add count, ← readBytes_shift, Nat.zero_add]
      exact readBytes_congr fun i _ h => by simp only [Nat.zero_add] at h; simp [h]
    · rename_i hZero
      rw [show b.len - count = 0 by omega]
      rfl

structure RpcBuffer.Inv (b : RpcBuffer) : Prop where
  len_le_cap : b.len ≤ b.cap
  cap_le : b.cap ≤ maxBufferBytes
  cap_shape : b.cap = 0 ∨ ∃ j, b.cap = initialBufferCap * 2 ^ j
  null_data : b.data = none → b.cap = 0

theorem RpcBuffer.empty_inv : RpcBuffer.empty.Inv :=
  ⟨le_rfl, by decide, .inl rfl, fun _ => rfl⟩

theorem maxBufferBytes_eq : maxBufferBytes = initialBufferCap * 2 ^ 9 := rfl

theorem pow_le_of_cap_le {j : Nat} (h : initialBufferCap * 2 ^ j ≤ maxBufferBytes) : j ≤ 9 := by
  rw [maxBufferBytes_eq] at h
  exact (Nat.pow_le_pow_iff_right (by decide)).mp (Nat.le_of_mul_le_mul_left h (by decide))

theorem cap_le_of_pow_le {j : Nat} (h : j ≤ 9) : initialBufferCap * 2 ^ j ≤ maxBufferBytes :=
  maxBufferBytes_eq ▸ Nat.mul_le_mul_left _ (Nat.pow_le_pow_right (by decide) h)

theorem growCapacity_spec (fuel : Nat) {j desired : Nat} (hDesired : desired ≤ maxBufferBytes)
    (hj : j ≤ 9) (hFuel : 9 - j < fuel) :
    ∃ k, growCapacity fuel (initialBufferCap * 2 ^ j) desired =
        some (initialBufferCap * 2 ^ (j + k)) ∧
      desired ≤ initialBufferCap * 2 ^ (j + k) ∧ j + k ≤ 9 := by
  induction fuel generalizing j with
  | zero => omega
  | succ fuel ih =>
    rw [growCapacity]
    by_cases hLt : initialBufferCap * 2 ^ j < desired
    · have hj' : j + 1 ≤ 9 := by
        by_contra hNot
        have := cap_le_of_pow_le (show 9 ≤ 9 from le_rfl)
        have := Nat.mul_le_mul_left initialBufferCap
          (Nat.pow_le_pow_right (show 0 < 2 by decide) (show 9 ≤ j by omega))
        rw [maxBufferBytes_eq] at hDesired
        omega
      have hDouble : initialBufferCap * 2 ^ j * 2 % 2 ^ 64 = initialBufferCap * 2 ^ (j + 1) := by
        have hEq : initialBufferCap * 2 ^ j * 2 = initialBufferCap * 2 ^ (j + 1) := by
          rw [Nat.pow_succ, Nat.mul_assoc]
        rw [hEq]
        exact Nat.mod_eq_of_lt
          (lt_of_le_of_lt (cap_le_of_pow_le hj') (show maxBufferBytes < 2 ^ 64 by decide))
      obtain ⟨k, hk, hDes, hBound⟩ := ih hj' (by omega)
      refine ⟨k + 1, ?_, ?_, by omega⟩
      · rw [if_pos hLt, hDouble, hk, Nat.add_right_comm, Nat.add_assoc]
      · rwa [Nat.add_right_comm, Nat.add_assoc] at hDes
    · exact ⟨0, by simp [hLt], by simpa using Nat.le_of_not_lt hLt, by omega⟩

/-- The doubling loop of `rpc_buffer_reserve` ends without a `size_t` overflow. -/
theorem RpcBuffer.Inv.growCapacity_eq {b : RpcBuffer} (hb : b.Inv) {desired : Nat}
    (hDesired : desired ≤ maxBufferBytes) :
    ∃ k, growCapacity 64 (if b.cap = 0 then initialBufferCap else b.cap) desired =
        some ((if b.cap = 0 then initialBufferCap else b.cap) * 2 ^ k) ∧
      desired ≤ (if b.cap = 0 then initialBufferCap else b.cap) * 2 ^ k ∧
      (if b.cap = 0 then initialBufferCap else b.cap) * 2 ^ k ≤ maxBufferBytes ∧
      ∃ j, (if b.cap = 0 then initialBufferCap else b.cap) * 2 ^ k = initialBufferCap * 2 ^ j := by
  obtain ⟨j, hj, hStart⟩ : ∃ j, j ≤ 9 ∧
      (if b.cap = 0 then initialBufferCap else b.cap) = initialBufferCap * 2 ^ j := by
    rcases hb.cap_shape with hCap | ⟨j, hCap⟩
    · exact ⟨0, by omega, by simp [hCap]⟩
    · have hPos : b.cap ≠ 0 := by
        rw [hCap]; exact Nat.mul_ne_zero (by decide) (Nat.pos_iff_ne_zero.mp (Nat.two_pow_pos j))
      exact ⟨j, pow_le_of_cap_le (hCap ▸ hb.cap_le), by rw [if_neg hPos, hCap]⟩
  obtain ⟨k, hk, hDes, hBound⟩ := growCapacity_spec 64 hDesired hj (by omega)
  refine ⟨k, ?_, ?_, ?_, j + k, ?_⟩ <;> rw [hStart, Nat.mul_assoc, ← Nat.pow_add]
  · exact hk
  · exact hDes
  · exact cap_le_of_pow_le hBound

theorem rpcBufferReserve_spec {b : RpcBuffer} (hb : b.Inv) (h : Heap) {desired : Nat}
    (hDesired : desired ≤ maxBufferBytes) :
    let r := rpcBufferReserve b h desired
    (r.1 = true ↔ desired ≤ b.cap ∨ h.calloc.1.isSome) ∧ (r.1 = false → r.2.1 = b) ∧
      r.2.1.Inv ∧ r.2.1.len = b.len ∧ r.2.1.bytes = b.bytes ∧
      (r.1 = true → desired ≤ r.2.1.cap) := by
  unfold rpcBufferReserve
  split
  · rename_i hFits
    exact ⟨by simp [hFits], fun hF => by simp at hF, hb, rfl, rfl, fun _ => hFits⟩
  · rename_i hGrow
    obtain ⟨k, hk, hDes, hBound, j, hShape⟩ := hb.growCapacity_eq hDesired
    rw [hk]
    dsimp only
    have hLen : b.len < desired := by have := hb.len_le_cap; omega
    have hNew : ∀ (mem : Nat → UInt8) (data : Option Nat), data.isSome →
        (∀ i < b.len, mem i = b.mem i) →
        RpcBuffer.Inv
            ⟨data, mem, b.len, (if b.cap = 0 then initialBufferCap else b.cap) * 2 ^ k⟩ ∧
          RpcBuffer.bytes ⟨data, mem, b.len, (if b.cap = 0 then initialBufferCap else b.cap) * 2 ^ k⟩ =
            b.bytes := by
      intro mem data hData hMem
      refine ⟨⟨show b.len ≤ (if b.cap = 0 then initialBufferCap else b.cap) * 2 ^ k by omega, hBound, .inr ⟨j, hShape⟩, fun h => by
        cases data <;> simp_all⟩, ?_⟩
      exact readBytes_congr fun i _ hi => hMem i (by simpa using hi)
    have hZero : b.len = 0 → ∀ i < b.len, (0 : UInt8) = b.mem i := fun h i hi => by omega
    split
    · rename_i h' hc
      exact ⟨by simp [hGrow, hc], fun _ => rfl, hb, rfl, rfl, fun hF => by simp at hF⟩
    · rename_i block h' hc
      have hCalloc : (h.calloc.1.isSome) = true := by simp [hc]
      have hOk : ∀ (mem : Nat → UInt8), (∀ i < b.len, mem i = b.mem i) →
          let r : Bool × RpcBuffer × Heap := (true, ⟨some block, mem, b.len,
            (if b.cap = 0 then initialBufferCap else b.cap) * 2 ^ k⟩, h')
          (r.1 = true ↔ desired ≤ b.cap ∨ h.calloc.1.isSome) ∧ (r.1 = false → r.2.1 = b) ∧
            r.2.1.Inv ∧ r.2.1.len = b.len ∧ r.2.1.bytes = b.bytes ∧
            (r.1 = true → desired ≤ r.2.1.cap) := fun mem hMem =>
        ⟨by simp [hCalloc], fun hF => by simp at hF, (hNew mem (some block) rfl hMem).1, rfl,
          (hNew mem (some block) rfl hMem).2, fun _ => hDes⟩
      split
      · rename_i old hData
        split
        · exact hOk _ fun i hi => by simp [hi]
        · exact hOk _ (hZero (by omega))
      · rename_i hData
        exact hOk _ (hZero (by have := hb.len_le_cap; have := hb.null_data hData; omega))

def RpcBuffer.allocSucceeds (b : RpcBuffer) (h : Heap) (n : Nat) : Bool :=
  n = 0 || b.len + n ≤ b.cap || h.calloc.1.isSome

theorem rpcBufferAppend_spec {b : RpcBuffer} (hb : b.Inv) (h : Heap) {data : List UInt8}
    (hData : data.length ≤ sizeMax - maxBufferBytes) :
    let r := rpcBufferAppend b h data
    (r.1 = true ↔ b.len + data.length ≤ maxBufferBytes ∧ b.allocSucceeds h data.length) ∧
      (r.1 = false → r.2.1 = b) ∧ r.2.1.Inv ∧
      r.2.1.bytes = if r.1 then b.bytes ++ data else b.bytes := by
  have hWrap : (b.len + data.length) % 2 ^ 64 = b.len + data.length := by
    have := hb.len_le_cap; have := hb.cap_le
    exact Nat.mod_eq_of_lt (by simp only [sizeMax, maxBufferBytes] at *; omega)
  unfold rpcBufferAppend
  dsimp only
  split
  · rename_i hZero
    obtain rfl : data = [] := List.eq_nil_of_length_eq_zero hZero
    have := hb.len_le_cap; have := hb.cap_le
    exact ⟨by simp [RpcBuffer.allocSucceeds]; omega, fun hF => by simp at hF, hb, by simp⟩
  · rename_i hPos
    rw [hWrap]
    split
    · rename_i hBig
      exact ⟨by simp; omega, fun _ => rfl, hb, rfl⟩
    · rename_i hFits
      obtain ⟨hOk, hFalse, hInv, hLen, hBytes, hCap⟩ :=
        @rpcBufferReserve_spec b hb h (b.len + data.length) (by omega)
      rcases hr : rpcBufferReserve b h (b.len + data.length) with ⟨_ | _, b', h'⟩ <;>
        rw [hr] at hOk hFalse hInv hLen hBytes hCap <;> dsimp only at hOk hFalse hInv hLen hBytes hCap
      · have hFail : ¬ (b.len + data.length ≤ b.cap ∨ h.calloc.1.isSome) := by simpa using hOk
        refine ⟨?_, fun _ => hFalse rfl, hFalse rfl ▸ hb, by rw [hFalse rfl]; rfl⟩
        simp only [RpcBuffer.allocSucceeds]
        simp_all
      · have hCap' := hCap rfl
        refine ⟨?_, fun hF => by simp at hF, ⟨by simp; omega, hInv.cap_le, hInv.cap_shape, hInv.null_data⟩, ?_⟩
        · simp only [RpcBuffer.allocSucceeds, true_iff]
          have hOk' := hOk.mp rfl
          refine ⟨by omega, ?_⟩
          rcases hOk' with h1 | h1 <;> simp [h1]
        · show readBytes (writeBytes b'.mem b'.len data) 0 (b.len + data.length) = b.bytes ++ data
          rw [← hBytes, ← hLen]
          exact bytes_append_write b' data

theorem rpcBufferConsume_inv {b : RpcBuffer} (hb : b.Inv) (count : Nat) :
    (rpcBufferConsume b count).Inv := by
  unfold rpcBufferConsume
  split
  · exact hb
  · exact ⟨by have := hb.len_le_cap; simp; omega, hb.cap_le, hb.cap_shape, hb.null_data⟩

theorem rpcBufferFree_inv (b : RpcBuffer) (h : Heap) : (rpcBufferFree b h).1.Inv := by
  unfold rpcBufferFree
  split <;> exact ⟨le_rfl, Nat.zero_le _, .inl rfl, fun _ => rfl⟩

/-- The byte queue the buffer stands for: an append is taken whole when it fits, or not at all. -/
def queueAppend (q data : List UInt8) (allocOk : Bool) : Bool × List UInt8 :=
  if q.length + data.length ≤ maxBufferBytes ∧ allocOk = true then (true, q ++ data)
  else (false, q)

def queueConsume (q : List UInt8) (count : Nat) : List UInt8 :=
  if 1 ≤ count ∧ count ≤ q.length then q.drop count else q

inductive BufferOp
  | append (data : List UInt8)
  | consume (count : Nat)
  | free

def BufferOp.apply : BufferOp → RpcBuffer × Heap → RpcBuffer × Heap
  | .append data, (b, h) => (rpcBufferAppend b h data).2
  | .consume count, (b, h) => (rpcBufferConsume b count, h)
  | .free, (b, h) => rpcBufferFree b h

/-- The appends the callers may make: `n <= SIZE_MAX - MAX_BUFFER_BYTES`. -/
def BufferOp.Bounded : BufferOp → Prop
  | .append data => data.length ≤ sizeMax - maxBufferBytes
  | _ => True

def runBuffer (ops : List BufferOp) (s : RpcBuffer × Heap) : RpcBuffer × Heap :=
  ops.foldl (fun s op => op.apply s) s

theorem runBuffer_append (ops₁ ops₂ : List BufferOp) (s : RpcBuffer × Heap) :
    runBuffer (ops₁ ++ ops₂) s = runBuffer ops₂ (runBuffer ops₁ s) :=
  List.foldl_append _ _ _ _

theorem BufferOp.apply_inv {op : BufferOp} (hOp : op.Bounded) {s : RpcBuffer × Heap}
    (hs : s.1.Inv) : (op.apply s).1.Inv := by
  obtain ⟨b, h⟩ := s
  cases op with
  | append data => exact (rpcBufferAppend_spec hs h hOp).2.2.1
  | consume count => exact rpcBufferConsume_inv hs count
  | free => exact rpcBufferFree_inv b h

theorem runBuffer_inv {ops : List BufferOp} (hOps : ∀ op ∈ ops, op.Bounded)
    {s : RpcBuffer × Heap} (hs : s.1.Inv) : (runBuffer ops s).1.Inv := by
  induction ops generalizing s with
  | nil => exact hs
  | cons op ops ih =>
    exact ih (fun o ho => hOps o (List.mem_cons_of_mem _ ho))
      (BufferOp.apply_inv (hOps op (List.mem_cons_self _ _)) hs)

/-- A buffer state that behaves as the bounded byte queue under every next operation. -/
structure RpcBuffer.BoundedQueue (b : RpcBuffer) (h : Heap) : Prop where
  inv : b.Inv
  append : ∀ data : List UInt8, data.length ≤ sizeMax - maxBufferBytes →
    ((rpcBufferAppend b h data).1, (rpcBufferAppend b h data).2.1.bytes) =
        queueAppend b.bytes data (b.allocSucceeds h data.length) ∧
      ((rpcBufferAppend b h data).1 = false → (rpcBufferAppend b h data).2.1 = b)
  consume : ∀ count, (rpcBufferConsume b count).bytes = queueConsume b.bytes count
  grow : ∀ desired, desired ≤ maxBufferBytes → ∃ k,
    growCapacity 64 (if b.cap = 0 then initialBufferCap else b.cap) desired =
      some ((if b.cap = 0 then initialBufferCap else b.cap) * 2 ^ k) ∧
    (if b.cap = 0 then initialBufferCap else b.cap) * 2 ^ k ≤ maxBufferBytes

theorem RpcBuffer.Inv.boundedQueue {b : RpcBuffer} (hb : b.Inv) (h : Heap) :
    b.BoundedQueue h := by
  have hLen : b.bytes.length = b.len := readBytes_length _ _ _
  refine ⟨hb, fun data hData => ?_, fun count => ?_, fun desired hDesired => ?_⟩
  · obtain ⟨hOk, hFalse, -, hBytes⟩ := rpcBufferAppend_spec hb h hData
    refine ⟨?_, hFalse⟩
    rw [queueAppend, hLen]
    rcases hr : (rpcBufferAppend b h data).1 with _ | _ <;> rw [hr] at hOk hBytes
    · rw [if_neg (by simpa using hOk), hBytes]; rfl
    · rw [if_pos (hOk.mp rfl), hBytes]; rfl
  · rw [rpcBufferConsume_bytes, queueConsume, hLen]
    by_cases hCount : count = 0 ∨ b.len < count
    · rw [if_pos hCount, if_neg (by omega)]
    · rw [if_neg hCount, if_pos (by omega)]
  · obtain ⟨k, hk, -, hBound, -⟩ := hb.growCapacity_eq hDesired
    exact ⟨k, hk, hBound⟩

theorem rpcBuffer_bounded_queue (ops : List BufferOp) (h : Heap)
    (hOps : ∀ op ∈ ops, op.Bounded) :
    (runBuffer ops (RpcBuffer.empty, h)).1.BoundedQueue (runBuffer ops (RpcBuffer.empty, h)).2 :=
  (runBuffer_inv hOps RpcBuffer.empty_inv).boundedQueue _

theorem rpcBuffer_bounded_queue_newline :
    (∀ op ∈ [BufferOp.append [10], .consume 1], op.Bounded) ∧
      (runBuffer [.append [10], .consume 1] (RpcBuffer.empty, ⟨[], 0, []⟩)).1.BoundedQueue
        (runBuffer [.append [10], .consume 1] (RpcBuffer.empty, ⟨[], 0, []⟩)).2 :=
  have hOps : ∀ op ∈ [BufferOp.append [10], .consume 1], op.Bounded := by
    simp [BufferOp.Bounded, sizeMax, maxBufferBytes]
  ⟨hOps, rpcBuffer_bounded_queue _ _ hOps⟩

/-- `rpc_buffer_reserve` frees the old block only when `len > 0`: an emptied buffer leaks it. -/
theorem rpcBufferReserve_keeps_emptied_block {b : RpcBuffer} (hb : b.Inv) (h : Heap)
    {desired old : Nat} (hData : b.data = some old) (hLen : b.len = 0) (hGrow : b.cap < desired)
    (hDesired : desired ≤ maxBufferBytes) (hCalloc : h.calloc.1 = some h.next) :
    (rpcBufferReserve b h desired).1 = true ∧
      (rpcBufferReserve b h desired).2.1.data = some h.next ∧
      (rpcBufferReserve b h desired).2.2.live = h.next :: h.live := by
  obtain ⟨k, hk, -⟩ := hb.growCapacity_eq hDesired
  unfold rpcBufferReserve
  rw [if_neg (by omega), hk]
  dsimp only
  unfold Heap.calloc at hCalloc ⊢
  split at hCalloc
  · cases hCalloc
  · simp [hData, hLen]

theorem rpcBuffer_regrowth_leaks (data : List UInt8) (hLong : initialBufferCap < data.length)
    (hShort : data.length ≤ maxBufferBytes) :
    (runBuffer [.append [10], .consume 1, .append data] (RpcBuffer.empty, ⟨[], 0, []⟩)).1.data =
        some 1 ∧
      (runBuffer [.append [10], .consume 1, .append data] (RpcBuffer.empty, ⟨[], 0, []⟩)).2.live =
        [1, 0] := by
  let s2 := runBuffer [.append [10], .consume 1] (RpcBuffer.empty, ⟨[], 0, []⟩)
  have hInv : s2.1.Inv := runBuffer_inv (by simp [BufferOp.Bounded, sizeMax, maxBufferBytes])
    RpcBuffer.empty_inv
  have hData : s2.1.data = some 0 := by decide
  have hLen : s2.1.len = 0 := by decide
  have hCap : s2.1.cap = initialBufferCap := by decide
  have hHeap : s2.2.live = [0] ∧ s2.2.next = 1 ∧ s2.2.faults = [] := by decide
  obtain ⟨hOk, hD, hL⟩ := rpcBufferReserve_keeps_emptied_block hInv s2.2 hData hLen
    (by rw [hCap]; exact hLong) hShort (by simp [Heap.calloc, hHeap.2.2])
  show (rpcBufferAppend s2.1 s2.2 data).2.1.data = some 1 ∧
    (rpcBufferAppend s2.1 s2.2 data).2.2.live = [1, 0]
  have hReq : (s2.1.len + data.length) % 2 ^ 64 = data.length := by
    rw [hLen, Nat.zero_add]
    exact Nat.mod_eq_of_lt (lt_of_le_of_lt hShort (by decide))
  unfold rpcBufferAppend
  rw [if_neg (by unfold initialBufferCap at hLong; omega), hReq, if_neg (by omega)]
  rcases hr : rpcBufferReserve s2.1 s2.2 data.length with ⟨_ | _, b', h'⟩ <;>
    rw [hr] at hOk hD hL
  · cases hOk
  · exact ⟨by simpa [hHeap.2.1] using hD, by simpa [hHeap.1, hHeap.2.1] using hL⟩

theorem rpcBuffer_regrowth_leaks_4097 :
    (runBuffer [.append [10], .consume 1, .append (List.replicate 4097 0)]
        (RpcBuffer.empty, ⟨[], 0, []⟩)).1.data = some 1 ∧
      (runBuffer [.append [10], .consume 1, .append (List.replicate 4097 0)]
        (RpcBuffer.empty, ⟨[], 0, []⟩)).2.live = [1, 0] :=
  rpcBuffer_regrowth_leaks _ (by rw [List.length_replicate]; decide)
    (by rw [List.length_replicate]; decide)

/-- The blocks taken from `base` on: the buffer's own, and one leaked block per doubling since. -/
structure RpcBuffer.Leak (b : RpcBuffer) (h : Heap) (base : Nat) (leaked : List Nat) : Prop where
  fresh : ∀ x ∈ h.live, x < h.next
  base_le : base ≤ h.next
  live : (h.live.filter (base ≤ ·)).Perm (b.data.toList ++ leaked)
  none_data : b.data = none → leaked = []
  doubled : b.data.isSome → initialBufferCap * 2 ^ leaked.length ≤ b.cap

theorem RpcBuffer.empty_leak {h : Heap} (hHeap : ∀ x ∈ h.live, x < h.next) :
    RpcBuffer.empty.Leak h h.next [] := by
  refine ⟨hHeap, le_rfl, ?_, fun _ => rfl, fun hSome => by cases hSome⟩
  rw [List.filter_eq_nil_iff.mpr fun x hx => by simpa using hHeap x hx]
  rfl

section
variable {b : RpcBuffer} {h : Heap} {base : Nat} {leaked : List Nat}

theorem RpcBuffer.Leak.reserve (hL : b.Leak h base leaked) (hb : b.Inv) {desired : Nat}
    (hDesired : desired ≤ maxBufferBytes) :
    ∃ leaked', (rpcBufferReserve b h desired).2.1.Leak (rpcBufferReserve b h desired).2.2 base
      leaked' := by
  unfold rpcBufferReserve
  split
  · exact ⟨leaked, hL⟩
  · rename_i hGrow
    obtain ⟨k, hk, hDes, -⟩ := hb.growCapacity_eq hDesired
    rw [hk]
    dsimp only
    rcases h.calloc_cases with ⟨-, hc⟩ | ⟨-, hc⟩ <;> rw [hc] <;> dsimp only
    · exact ⟨leaked, hL.fresh, hL.base_le, hL.live, hL.none_data, hL.doubled⟩
    have hFresh : ∀ x ∈ h.next :: h.live, x < h.next + 1 := fun x hx => by
      rcases List.mem_cons.mp hx with rfl | hx
      · exact Nat.lt_succ_self _
      · exact Nat.lt_succ_of_lt (hL.fresh x hx)
    have hTaken : (h.next :: h.live).filter (base ≤ ·) = h.next :: h.live.filter (base ≤ ·) :=
      List.filter_cons_of_pos (by simpa using hL.base_le)
    have hBase : base ≤ h.next + 1 := Nat.le_succ_of_le hL.base_le
    split
    · rename_i old hData
      have hDoubled := hL.doubled (by simp [hData])
      have hCap : (if b.cap = 0 then initialBufferCap else b.cap) = b.cap :=
        if_neg (Nat.pos_iff_ne_zero.mp
          (lt_of_lt_of_le (Nat.mul_pos (by decide) (Nat.two_pow_pos _)) hDoubled))
      rw [hCap] at hDes ⊢
      have hOld : old < h.next :=
        hL.fresh old (List.mem_of_mem_filter (hL.live.symm.subset (by simp [hData])))
      split
      · refine ⟨leaked, fun x hx => hFresh x (List.mem_of_mem_erase hx), hBase, ?_, nofun,
          fun _ => hDoubled.trans (Nat.le_mul_of_pos_right _ (Nat.two_pow_pos k))⟩
        show (((h.next :: h.live).erase old).filter _).Perm _
        rw [← List.erase_filter, hTaken, List.erase_cons_tail (by simpa using hOld.ne')]
        simpa [hData] using (hL.live.erase old).cons h.next
      · have hk : 2 ≤ 2 ^ k := by
          rcases k with _ | k
          · simp at hDes; omega
          · exact Nat.le_self_pow (Nat.succ_ne_zero k) 2
        refine ⟨old :: leaked, hFresh, hBase, ?_, nofun, fun _ => ?_⟩
        · rw [hTaken]
          simpa [hData] using hL.live.cons h.next
        · calc initialBufferCap * 2 ^ (old :: leaked).length
              = initialBufferCap * 2 ^ leaked.length * 2 := by
                rw [List.length_cons, Nat.pow_succ, Nat.mul_assoc]
            _ ≤ b.cap * 2 ^ k := Nat.mul_le_mul hDoubled hk
    · rename_i hData
      obtain rfl := hL.none_data hData
      have hCap : (if b.cap = 0 then initialBufferCap else b.cap) = initialBufferCap :=
        if_pos (hb.null_data hData)
      refine ⟨[], hFresh, hBase, ?_, nofun, fun _ => ?_⟩
      · have hNone : h.live.filter (base ≤ ·) = [] :=
          List.Perm.eq_nil (by simpa [hData] using hL.live)
        rw [hTaken, hNone]
        rfl
      · rw [hCap]
        exact Nat.mul_le_mul_left _ (Nat.one_le_two_pow)

theorem RpcBuffer.Leak.append (hL : b.Leak h base leaked) (hb : b.Inv) (data : List UInt8) :
    ∃ leaked', (rpcBufferAppend b h data).2.1.Leak (rpcBufferAppend b h data).2.2 base
      leaked' := by
  unfold rpcBufferAppend
  dsimp only
  split
  · exact ⟨leaked, hL⟩
  split
  · exact ⟨leaked, hL⟩
  · rename_i hFits
    obtain ⟨leaked', hL'⟩ := hL.reserve hb (Nat.le_of_not_lt hFits)
    rcases hr : rpcBufferReserve b h ((b.len + data.length) % 2 ^ 64) with ⟨_ | _, b', h'⟩ <;>
      rw [hr] at hL'
    · exact ⟨leaked', hL'⟩
    · exact ⟨leaked', hL'.fresh, hL'.base_le, hL'.live, hL'.none_data, hL'.doubled⟩

theorem RpcBuffer.Leak.consume (hL : b.Leak h base leaked) (count : Nat) :
    (rpcBufferConsume b count).Leak h base leaked := by
  unfold rpcBufferConsume
  split
  · exact hL
  · exact ⟨hL.fresh, hL.base_le, hL.live, hL.none_data, hL.doubled⟩

theorem RpcBuffer.Leak.length_le (hL : b.Leak h base leaked) (hb : b.Inv) :
    leaked.length ≤ 9 := by
  cases hData : b.data with
  | none => simp [hL.none_data hData]
  | some _ => exact pow_le_of_cap_le ((hL.doubled (by simp [hData])).trans hb.cap_le)

theorem RpcBuffer.Leak.free (hL : b.Leak h base leaked) :
    ((rpcBufferFree b h).2.live.filter (base ≤ ·)).Perm leaked := by
  unfold rpcBufferFree
  split
  · rename_i block hData
    show ((h.live.erase block).filter _).Perm _
    rw [← List.erase_filter]
    simpa [hData] using hL.live.erase block
  · rename_i hData
    simpa [hData, hL.none_data hData] using hL.live

end

theorem BufferOp.apply_leak {op : BufferOp} (hOp : op ≠ .free) {s : RpcBuffer × Heap}
    {base : Nat} {leaked : List Nat} (hs : s.1.Inv) (hL : s.1.Leak s.2 base leaked) :
    ∃ leaked', (op.apply s).1.Leak (op.apply s).2 base leaked' := by
  obtain ⟨b, h⟩ := s
  cases op with
  | append data => exact hL.append hs data
  | consume count => exact ⟨leaked, hL.consume count⟩
  | free => exact absurd rfl hOp

theorem runBuffer_leak {ops : List BufferOp} (hOps : ∀ op ∈ ops, op.Bounded ∧ op ≠ .free) :
    ∀ {s : RpcBuffer × Heap} {base : Nat} {leaked : List Nat},
      s.1.Inv → s.1.Leak s.2 base leaked →
      ∃ leaked', (runBuffer ops s).1.Leak (runBuffer ops s).2 base leaked' := by
  induction ops with
  | nil => exact fun _ hL => ⟨_, hL⟩
  | cons op ops ih =>
    intro s base leaked hs hL
    obtain ⟨hBounded, hFree⟩ := hOps op (List.mem_cons_self _ _)
    obtain ⟨leaked', hL'⟩ := BufferOp.apply_leak hFree hs hL
    exact ih (fun o ho => hOps o (List.mem_cons_of_mem _ ho)) (BufferOp.apply_inv hBounded hs) hL'

theorem rpcBuffer_leak_bounded (ops : List BufferOp)
    (hOps : ∀ op ∈ ops, op.Bounded ∧ op ≠ .free) (h : Heap) (hHeap : ∀ x ∈ h.live, x < h.next) :
    ∃ leaked, leaked.length ≤ 9 ∧
      ((runBuffer ops (RpcBuffer.empty, h)).2.live.filter (h.next ≤ ·)).Perm
        ((runBuffer ops (RpcBuffer.empty, h)).1.data.toList ++ leaked) ∧
      ((rpcBufferFree (runBuffer ops (RpcBuffer.empty, h)).1
        (runBuffer ops (RpcBuffer.empty, h)).2).2.live.filter (h.next ≤ ·)).Perm leaked := by
  have hInv : (runBuffer ops (RpcBuffer.empty, h)).1.Inv :=
    runBuffer_inv (fun op hOp => (hOps op hOp).1) RpcBuffer.empty_inv
  obtain ⟨leaked, hL⟩ := @runBuffer_leak ops hOps (RpcBuffer.empty, h) h.next []
    RpcBuffer.empty_inv (RpcBuffer.empty_leak hHeap)
  exact ⟨leaked, hL.length_le hInv, hL.live, hL.free⟩

end JsonRpc
