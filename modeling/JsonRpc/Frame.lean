import JsonRpc.Feed

/-! # The framer against a reference

The reference framer reads the whole input at once: its complete lines, each less one
trailing `\r`; it skips the empty ones, answers the first one over `MAX_MESSAGE_BYTES` and
stops there, and runs one message epoch on every other one. Fed in any chunks,
`jsonrpc_conn_feed` does what the reference does on their concatenation, and every line it
parses is a complete line of the bytes its buffer accepted.
-/

namespace JsonRpc
set_option autoImplicit false

/-- The complete lines of `cur ++ s`, each without its newline, and the bytes after the last one. -/
def linesFrom (cur : List UInt8) : List UInt8 → List (List UInt8) × List UInt8
  | [] => ([], cur)
  | b :: s =>
    if b = 10 then (cur :: (linesFrom [] s).1, (linesFrom [] s).2) else linesFrom (cur ++ [b]) s

def lines (s : List UInt8) : List (List UInt8) × List UInt8 := linesFrom [] s

/-- A line less one trailing `\r`. -/
def stripCR (raw : List UInt8) : List UInt8 :=
  if raw.getLast? = some 13 then raw.dropLast else raw

theorem linesFrom_append (cur s t : List UInt8) :
    linesFrom cur (s ++ t) =
      ((linesFrom cur s).1 ++ (linesFrom (linesFrom cur s).2 t).1,
        (linesFrom (linesFrom cur s).2 t).2) := by
  induction s generalizing cur with
  | nil => simp [linesFrom]
  | cons b s ih =>
    by_cases hb : b = 10
    · simp [linesFrom, hb, ih]
    · simp [linesFrom, hb, ih]

theorem linesFrom_of_not_mem {s : List UInt8} (h : (10 : UInt8) ∉ s) (cur : List UInt8) :
    linesFrom cur s = ([], cur ++ s) := by
  induction s generalizing cur with
  | nil => simp [linesFrom]
  | cons b s ih =>
    simp only [List.mem_cons, not_or] at h
    simp [linesFrom, Ne.symm h.1, ih h.2]

theorem linesFrom_newline {l : List UInt8} (h : (10 : UInt8) ∉ l) (cur rest : List UInt8) :
    linesFrom cur (l ++ 10 :: rest) = ((cur ++ l) :: (lines rest).1, (lines rest).2) := by
  rw [linesFrom_append, linesFrom_of_not_mem h]
  simp [linesFrom, lines]

theorem not_mem_linesFrom_snd {cur : List UInt8} (hCur : (10 : UInt8) ∉ cur) (s : List UInt8) :
    (10 : UInt8) ∉ (linesFrom cur s).2 := by
  induction s generalizing cur with
  | nil => exact hCur
  | cons b s ih =>
    unfold linesFrom
    split_ifs with hb
    · exact ih (by simp)
    · exact ih (by simp [hCur, Ne.symm hb])

theorem not_mem_lines_snd (s : List UInt8) : (10 : UInt8) ∉ (lines s).2 :=
  not_mem_linesFrom_snd (by simp) s

theorem linesFrom_eq_lines {cur : List UInt8} (hCur : (10 : UInt8) ∉ cur) (s : List UInt8) :
    linesFrom cur s = lines (cur ++ s) := by
  rw [lines, linesFrom_append, linesFrom_of_not_mem hCur]
  simp

theorem lines_append (s t : List UInt8) :
    lines (s ++ t) = ((lines s).1 ++ (lines ((lines s).2 ++ t)).1, (lines ((lines s).2 ++ t)).2) := by
  have h := linesFrom_append [] s t
  rw [linesFrom_eq_lines (not_mem_linesFrom_snd (by simp) s)] at h
  exact h

theorem readBytes_lineLen {b : RpcBuffer} {l rest : List UInt8}
    (hBytes : b.bytes = l ++ 10 :: rest) :
    readBytes b.mem 0 (jsonrpcLineLen b.mem l.length) = stripCR l := by
  have hLen : b.bytes.length = b.len := readBytes_length _ _ _
  have hl : l.length < b.len := by rw [← hLen, hBytes]; simp
  have hLast : (0 < l.length ∧ b.mem (l.length - 1) = 13) ↔ l.getLast? = some 13 := by
    rw [List.getLast?_eq_getElem?]
    constructor
    · rintro ⟨hPos, hCR⟩
      have h := b.mem_eq_getElem? (i := l.length - 1) (by omega)
      rw [hBytes, List.getElem?_append_left (by omega), hCR] at h
      exact h.symm
    · intro h
      have hPos : 0 < l.length := by
        rcases l with _ | ⟨x, l⟩
        · simp at h
        · simp
      have h' := b.mem_eq_getElem? (i := l.length - 1) (by omega)
      rw [hBytes, List.getElem?_append_left (by omega), h] at h'
      exact ⟨hPos, Option.some.inj h'⟩
  unfold jsonrpcLineLen stripCR
  rw [b.readBytes_eq_take (by split_ifs <;> omega), hBytes]
  by_cases hCR : l.getLast? = some 13
  · rw [if_pos (hLast.mpr hCR), if_pos hCR, List.take_append_of_le_length (by omega),
      List.dropLast_eq_take]
  · rw [if_neg (fun h => hCR (hLast.mp h)), if_neg hCR, List.take_left]

section
variable {σ : Type}

/-- The reference's answer to a line over `MAX_MESSAGE_BYTES`: "Request too large", then `close`. -/
def frameTooLarge (lib : JsonLib) (conn : JsonrpcConn σ) (w : World σ) : World σ :=
  let w := (jsonrpcConnSendError lib (some conn) none jsonrpcErrInvalidRequest
    (some "Request too large") w).2
  if conn.transport.close then w.emit .close else w

/-- The reference framer over complete lines: whether it stopped, and the world after. -/
def frameLines (lib : JsonLib) (conn : JsonrpcConn σ) :
    List (List UInt8) → World σ → Bool × World σ
  | [], w => (false, w)
  | raw :: rest, w =>
    if stripCR raw = [] then frameLines lib conn rest w
    else if maxMessageBytes < (stripCR raw).length then (true, frameTooLarge lib conn w)
    else
      match jsonrpcMessageEpoch lib conn (stripCR raw) w with
      | (true, w) => (true, w)
      | (false, w) => frameLines lib conn rest w

/-- `Frame(s)`: the reference framer over the complete lines of `s`. -/
def frame (lib : JsonLib) (conn : JsonrpcConn σ) (s : List UInt8) (w : World σ) :
    Bool × World σ :=
  frameLines lib conn (lines s).1 w

theorem frameLines_append (lib : JsonLib) (conn : JsonrpcConn σ) (ls₁ ls₂ : List (List UInt8))
    (w : World σ) :
    frameLines lib conn (ls₁ ++ ls₂) w =
      match frameLines lib conn ls₁ w with
      | (true, w) => (true, w)
      | (false, w) => frameLines lib conn ls₂ w := by
  induction ls₁ generalizing w with
  | nil => rfl
  | cons raw ls₁ ih =>
    simp only [List.cons_append, frameLines]
    split_ifs
    · exact ih w
    · rfl
    · split <;> simp [ih]

theorem jsonrpcRequestTooLarge_eq_frameTooLarge (lib : JsonLib) (conn : JsonrpcConn σ)
    (w : World σ) : jsonrpcRequestTooLarge lib conn w = frameTooLarge lib conn w := by
  unfold jsonrpcRequestTooLarge frameTooLarge
  split_ifs <;> simp_all

/-- What an epoch and a report read of the connection: its transport, handlers and arena. -/
def JsonrpcConn.config (conn : JsonrpcConn σ) : Transport × Callbacks σ × Option Nat :=
  (conn.transport, conn.callbacks, conn.arena)

theorem jsonrpcMessageEpoch_congr (lib : JsonLib) {conn conn' : JsonrpcConn σ}
    (h : conn.config = conn'.config) : jsonrpcMessageEpoch lib conn = jsonrpcMessageEpoch lib conn' := by
  obtain ⟨t, c, _, _, _, a, _⟩ := conn
  obtain ⟨t', c', _, _, _, a', _⟩ := conn'
  simp only [JsonrpcConn.config, Prod.mk.injEq] at h
  obtain ⟨rfl, rfl, rfl⟩ := h
  rfl

theorem frameTooLarge_congr (lib : JsonLib) {conn conn' : JsonrpcConn σ}
    (h : conn.config = conn'.config) : frameTooLarge lib conn = frameTooLarge lib conn' := by
  obtain ⟨t, c, _, _, _, a, _⟩ := conn
  obtain ⟨t', c', _, _, _, a', _⟩ := conn'
  simp only [JsonrpcConn.config, Prod.mk.injEq] at h
  obtain ⟨rfl, rfl, rfl⟩ := h
  rfl

theorem frameLines_congr (lib : JsonLib) {conn conn' : JsonrpcConn σ}
    (h : conn.config = conn'.config) : frameLines lib conn = frameLines lib conn' := by
  funext ls w
  induction ls generalizing w with
  | nil => rfl
  | cons raw ls ih => simp only [frameLines, ih, jsonrpcMessageEpoch_congr lib h, frameTooLarge_congr lib h]

theorem rpcBufferConsume_line {b : RpcBuffer} {l rest : List UInt8}
    (hBytes : b.bytes = l ++ 10 :: rest) : (rpcBufferConsume b (l.length + 1)).bytes = rest := by
  have hLen : b.bytes.length = b.len := readBytes_length _ _ _
  rw [rpcBufferConsume_bytes, if_neg (by rw [← hLen, hBytes]; simp), hBytes]
  simp

theorem jsonrpcFeedLoop_frame (lib : JsonLib) (fuel : Nat) :
    ∀ (conn : JsonrpcConn σ) (w : World σ), conn.inbound.Inv → conn.inbound.bytes.length < fuel →
      (jsonrpcFeedLoop lib fuel conn w).2 = (frameLines lib conn (lines conn.inbound.bytes).1 w).2 ∧
        (jsonrpcFeedLoop lib fuel conn w).1.inbound.Inv ∧
        (∃ done, conn.inbound.bytes = done ++ (jsonrpcFeedLoop lib fuel conn w).1.inbound.bytes ∧
          (lines done).2 = []) ∧
        ((frameLines lib conn (lines conn.inbound.bytes).1 w).1 = false →
          (jsonrpcFeedLoop lib fuel conn w).1.inbound.bytes = (lines conn.inbound.bytes).2) := by
  induction fuel with
  | zero => intro conn w _ hFuel; omega
  | succ fuel ih =>
    intro conn w hInv hFuel
    simp only [jsonrpcFeedLoop]
    split
    · rename_i hNone
      simp only [lines, linesFrom_of_not_mem (memchr_eq_none.mp hNone), frameLines]
      exact ⟨by simp, hInv, ⟨[], by simp, rfl⟩, fun _ => by simp⟩
    · rename_i i hSome
      obtain ⟨l, rest, hBytes, hl, rfl⟩ := memchr_eq_some hSome
      have hLines : lines conn.inbound.bytes = (l :: (lines rest).1, (lines rest).2) := by
        rw [hBytes, lines, linesFrom_newline hl]
        simp
      have hLineLen : jsonrpcLineLen conn.inbound.mem l.length = (stripCR l).length := by
        rw [← readBytes_lineLen hBytes, readBytes_length]
      have hLine : readBytes conn.inbound.mem 0 (stripCR l).length = stripCR l :=
        hLineLen ▸ readBytes_lineLen hBytes
      have hRest := rpcBufferConsume_line hBytes
      have hRestInv := rpcBufferConsume_inv hInv (l.length + 1)
      have hRestFuel : (rpcBufferConsume conn.inbound (l.length + 1)).bytes.length < fuel := by
        rw [hRest]
        rw [hBytes] at hFuel
        simp at hFuel
        omega
      have hDone : (lines (l ++ [10])).2 = [] := by
        rw [lines, linesFrom_newline hl]
        rfl
      have hConfig : ({ conn with inbound := rpcBufferConsume conn.inbound (l.length + 1) } :
          JsonrpcConn σ).config = conn.config := rfl
      rw [hLines]
      simp only [frameLines, hLineLen, hLine, List.length_eq_zero,
        jsonrpcMessageEpoch_congr lib hConfig]
      split_ifs with hEmpty hLong
      · obtain ⟨hW, hI, ⟨done, hD, hDL⟩, hB⟩ :=
          ih { conn with inbound := rpcBufferConsume conn.inbound (l.length + 1) } w hRestInv hRestFuel
        rw [hRest] at hW hD hB
        rw [frameLines_congr lib hConfig] at hW hB
        refine ⟨hW, hI, ⟨l ++ 10 :: done, by simp [hBytes, hD], ?_⟩, hB⟩
        simpa [lines, linesFrom_newline hl] using hDL
      · exact ⟨jsonrpcRequestTooLarge_eq_frameTooLarge lib conn w, hInv, ⟨[], by simp, rfl⟩,
          fun h => by simp at h⟩
      · rcases jsonrpcMessageEpoch lib conn (stripCR l) w with ⟨_ | _, w₁⟩
        · obtain ⟨hW, hI, ⟨done, hD, hDL⟩, hB⟩ :=
            ih { conn with inbound := rpcBufferConsume conn.inbound (l.length + 1) } w₁ hRestInv hRestFuel
          rw [hRest] at hW hD hB
          rw [frameLines_congr lib hConfig] at hW hB
          refine ⟨hW, hI, ⟨l ++ 10 :: done, by simp [hBytes, hD], ?_⟩, hB⟩
          simpa [lines, linesFrom_newline hl] using hDL
        · exact ⟨rfl, hRestInv, ⟨l ++ [10], by simp [hBytes, hRest], hDone⟩, fun h => by simp at h⟩

theorem frame_append (lib : JsonLib) (conn : JsonrpcConn σ) (s t : List UInt8) (w : World σ) :
    frame lib conn (s ++ t) w =
      match frame lib conn s w with
      | (true, w) => (true, w)
      | (false, w) => frameLines lib conn (lines ((lines s).2 ++ t)).1 w := by
  rw [frame, lines_append, frameLines_append]
  rfl

theorem frame_append_of_stop {lib : JsonLib} {conn : JsonrpcConn σ} {s : List UInt8} {w : World σ}
    (h : (frame lib conn s w).1 = true) (t : List UInt8) :
    frame lib conn (s ++ t) w = frame lib conn s w := by
  rw [frame_append]
  generalize frame lib conn s w = r at h ⊢
  obtain ⟨_ | _, _⟩ := r
  · cases h
  · rfl

theorem frame_append_of_run {lib : JsonLib} {conn : JsonrpcConn σ} {s : List UInt8} {w : World σ}
    (h : (frame lib conn s w).1 = false) (t : List UInt8) :
    frame lib conn (s ++ t) w = frameLines lib conn (lines ((lines s).2 ++ t)).1 (frame lib conn s w).2 := by
  rw [frame_append]
  generalize frame lib conn s w = r at h ⊢
  obtain ⟨_ | _, _⟩ := r
  · rfl
  · cases h

theorem jsonrpcConnFeed_appends (lib : JsonLib) (conn : JsonrpcConn σ) (data : List UInt8)
    (w : World σ) :
    (jsonrpcConnFeed lib conn data w).1.appends =
      if data.length = 0 ∨ conn.closed then conn.appends
      else conn.appends ++ [(data, (rpcBufferAppend conn.inbound conn.heap data).1)] := by
  unfold jsonrpcConnFeed
  split_ifs
  · rfl
  · generalize rpcBufferAppend conn.inbound conn.heap data = r
    obtain ⟨accepted, inbound, heap⟩ := r
    dsimp only
    split_ifs
    · rfl
    · rw [(jsonrpcFeedLoop_spec lib _ _ w).2.2]

theorem feedChunks_appends (lib : JsonLib) (chunks : List (List UInt8)) :
    ∀ (conn : JsonrpcConn σ) (w : World σ),
      conn.appends <+: (feedChunks lib chunks (conn, w)).1.appends := by
  induction chunks with
  | nil => intro conn w; exact List.prefix_refl _
  | cons chunk chunks ih =>
    intro conn w
    have hFeed : conn.appends <+: (jsonrpcConnFeed lib conn chunk w).1.appends := by
      rw [jsonrpcConnFeed_appends]
      split_ifs
      · exact List.prefix_refl _
      · exact List.prefix_append _ _
    exact hFeed.trans (ih _ _)

theorem jsonrpcConnFeed_accepted (lib : JsonLib) {conn : JsonrpcConn σ} {data : List UInt8}
    (w : World σ) (hInv : conn.inbound.Inv) (hData : data.length ≤ sizeMax - maxBufferBytes)
    (hFeed : ¬(data.length = 0 ∨ conn.closed = true))
    (hAcc : (rpcBufferAppend conn.inbound conn.heap data).1 = true) :
    (jsonrpcConnFeed lib conn data w).2 =
        (frameLines lib conn (lines (conn.inbound.bytes ++ data)).1 w).2 ∧
      (jsonrpcConnFeed lib conn data w).1.config = conn.config ∧
      (jsonrpcConnFeed lib conn data w).1.closed = conn.closed ∧
      (jsonrpcConnFeed lib conn data w).1.inbound.Inv ∧
      (∃ done, conn.inbound.bytes ++ data =
        done ++ (jsonrpcConnFeed lib conn data w).1.inbound.bytes ∧ (lines done).2 = []) ∧
      ((frameLines lib conn (lines (conn.inbound.bytes ++ data)).1 w).1 = false →
        (jsonrpcConnFeed lib conn data w).1.inbound.bytes = (lines (conn.inbound.bytes ++ data)).2) := by
  obtain ⟨-, -, hInv', hBytes'⟩ := rpcBufferAppend_spec hInv conn.heap hData
  unfold jsonrpcConnFeed
  rw [if_neg hFeed]
  generalize rpcBufferAppend conn.inbound conn.heap data = r at hAcc hInv' hBytes'
  obtain ⟨accepted, inbound, heap⟩ := r
  dsimp only at hAcc hInv' hBytes' ⊢
  subst hAcc
  rw [if_pos rfl] at hBytes'
  rw [Bool.not_true, if_neg Bool.false_ne_true]
  set conn' : JsonrpcConn σ := { conn with inbound, heap, appends := conn.appends ++ [(data, true)] }
  have hConfig : conn'.config = conn.config := rfl
  have hFuel : conn'.inbound.bytes.length < inbound.len + 1 := by
    simp [conn', RpcBuffer.bytes]
  obtain ⟨hW, hI, hDone, hB⟩ := jsonrpcFeedLoop_frame lib _ conn' w hInv' hFuel
  obtain ⟨-, -, hConn⟩ := jsonrpcFeedLoop_spec lib (inbound.len + 1) conn' w
  have hBytes : conn'.inbound.bytes = conn.inbound.bytes ++ data := hBytes'
  rw [hBytes, frameLines_congr lib hConfig] at hW hB
  rw [hBytes] at hDone
  exact ⟨hW, by rw [hConn]; rfl, by rw [hConn], hI, hDone, hB⟩

/-- Where a chunked run stands against the reference on the bytes `fed` to it so far. -/
structure FramedRun (lib : JsonLib) (conn₀ : JsonrpcConn σ) (w₀ : World σ) (fed : List UInt8)
    (conn : JsonrpcConn σ) (w : World σ) : Prop where
  after_frame : ∃ rest, w.trace = (frame lib conn₀ fed w₀).2.trace ++ rest
  running : (frame lib conn₀ fed w₀).1 = false →
    w = (frame lib conn₀ fed w₀).2 ∧ conn.config = conn₀.config ∧ conn.closed = false ∧
      conn.inbound.Inv ∧ conn.inbound.bytes = (lines fed).2

theorem FramedRun.start (lib : JsonLib) (conn₀ : JsonrpcConn σ) (w₀ : World σ)
    (hOpen : conn₀.closed = false) (hEmpty : conn₀.inbound = RpcBuffer.empty) :
    FramedRun lib conn₀ w₀ [] conn₀ w₀ :=
  ⟨⟨[], by simp [frame, lines, linesFrom, frameLines]⟩, fun _ =>
    ⟨rfl, rfl, hOpen, hEmpty ▸ RpcBuffer.empty_inv, by simp [hEmpty, RpcBuffer.bytes,
      RpcBuffer.empty, readBytes, lines, linesFrom]⟩⟩

theorem FramedRun.feed {lib : JsonLib} {conn₀ : JsonrpcConn σ} {w₀ : World σ} {fed : List UInt8}
    {conn : JsonrpcConn σ} {w : World σ} (h : FramedRun lib conn₀ w₀ fed conn w)
    {data : List UInt8} (hData : data.length ≤ sizeMax - maxBufferBytes)
    (hAccepted : ∀ a ∈ (jsonrpcConnFeed lib conn data w).1.appends, a.2 = true) :
    FramedRun lib conn₀ w₀ (fed ++ data) (jsonrpcConnFeed lib conn data w).1
      (jsonrpcConnFeed lib conn data w).2 := by
  cases hStop : (frame lib conn₀ fed w₀).1
  case true =>
    obtain ⟨rest, hRest⟩ := h.after_frame
    obtain ⟨⟨-, δ, hδ, -⟩, -⟩ := jsonrpcConnFeed_spec lib conn data w
    refine ⟨⟨rest ++ δ, ?_⟩, fun hRun => ?_⟩
    · rw [frame_append_of_stop hStop, hδ, hRest, List.append_assoc]
    · rw [frame_append_of_stop hStop, hStop] at hRun
      cases hRun
  case false =>
    obtain ⟨rfl, hConfig, hOpen, hInv, hBytes⟩ := h.running hStop
    by_cases hEmpty : data.length = 0
    · rw [List.length_eq_zero.mp hEmpty, List.append_nil]
      simpa [jsonrpcConnFeed] using h
    have hFeed : ¬(data.length = 0 ∨ conn.closed = true) := by simp [hEmpty, hOpen]
    have hAcc : (rpcBufferAppend conn.inbound conn.heap data).1 = true :=
      hAccepted (data, _) (by rw [jsonrpcConnFeed_appends, if_neg hFeed]; simp)
    obtain ⟨hW, hConfig', hClosed, hI, -, hB⟩ := jsonrpcConnFeed_accepted lib _ hInv hData hFeed hAcc
    have hFrame : frame lib conn₀ (fed ++ data) w₀ =
        frameLines lib conn (lines (conn.inbound.bytes ++ data)).1 (frame lib conn₀ fed w₀).2 := by
      rw [frame_append_of_run hStop, hBytes, frameLines_congr lib hConfig]
    refine ⟨⟨[], by rw [hW, hFrame, List.append_nil]⟩, fun hRun =>
      ⟨by rw [hW, hFrame], hConfig'.trans hConfig, hClosed.trans hOpen, hI, ?_⟩⟩
    rw [hFrame] at hRun
    rw [hB hRun, hBytes, lines_append fed data]

theorem FramedRun.feed_chunks {lib : JsonLib} {conn₀ : JsonrpcConn σ} {w₀ : World σ}
    (chunks : List (List UInt8)) :
    ∀ {fed : List UInt8} {conn : JsonrpcConn σ} {w : World σ},
      FramedRun lib conn₀ w₀ fed conn w → (∀ c ∈ chunks, c.length ≤ sizeMax - maxBufferBytes) →
      (∀ a ∈ (feedChunks lib chunks (conn, w)).1.appends, a.2 = true) →
      FramedRun lib conn₀ w₀ (fed ++ chunks.flatten) (feedChunks lib chunks (conn, w)).1
        (feedChunks lib chunks (conn, w)).2 := by
  induction chunks with
  | nil => intro fed conn w h _ _; simpa using h
  | cons chunk chunks ih =>
    intro fed conn w h hBounded hAccepted
    have hStep := h.feed (hBounded chunk (by simp)) fun a ha =>
      hAccepted a ((feedChunks_appends lib chunks _ _).subset ha)
    rw [List.flatten_cons, ← List.append_assoc]
    exact ih hStep (fun c hc => hBounded c (by simp [hc])) hAccepted

end

end JsonRpc
