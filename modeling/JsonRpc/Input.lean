import JsonRpc.Frame

/-! # What the parser is given

The buffer holds what the appends it accepted brought, from a line boundary on, so every line
the framer copies out for `json_parse_string` is a complete line of the accepted input, less
one trailing `\r`. An append the buffer rejects is dropped whole while the partial line before
it stays buffered: the next accepted bytes continue that line, which then joins bytes that
were not adjacent in what was fed. Over a connection's life the buffer leaks at most nine
blocks of its allocator.
-/

namespace JsonRpc
set_option autoImplicit false

/-- The bytes of the appends the buffer accepted, in order. -/
def acceptedInput : List (List UInt8 × Bool) → List UInt8
  | [] => []
  | (data, accepted) :: rest => (if accepted then data else []) ++ acceptedInput rest

@[simp] theorem acceptedInput_append (a b : List (List UInt8 × Bool)) :
    acceptedInput (a ++ b) = acceptedInput a ++ acceptedInput b := by
  induction a with
  | nil => rfl
  | cons x a ih =>
    obtain ⟨data, accepted⟩ := x
    simp [acceptedInput, ih]

@[simp] theorem acceptedInput_singleton (data : List UInt8) (accepted : Bool) :
    acceptedInput [(data, accepted)] = if accepted then data else [] := by
  simp [acceptedInput]

theorem acceptedInput_mono {a b : List (List UInt8 × Bool)} (h : a <+: b) :
    acceptedInput a <+: acceptedInput b := by
  obtain ⟨c, rfl⟩ := h
  simp

theorem lines_fst_mono {s t : List UInt8} (h : s <+: t) : (lines s).1 <+: (lines t).1 := by
  obtain ⟨u, rfl⟩ := h
  rw [lines_append]
  exact List.prefix_append _ _

theorem lines_append_of_boundary {done : List UInt8} (h : (lines done).2 = []) (s : List UInt8) :
    lines (done ++ s) = ((lines done).1 ++ (lines s).1, (lines s).2) := by
  rw [lines_append, h, List.nil_append]

/-- An event other than a parse, or the parse of one of `ls`. -/
def Event.parsesOneOf (ls : List (List UInt8)) : Event → Bool
  | .parse line => decide (line ∈ ls)
  | _ => true

theorem Event.parsesOneOf_of_inner {e : Event} (h : e.inner = true) (ls : List (List UInt8)) :
    e.parsesOneOf ls = true := by
  cases e <;> simp_all [Event.inner, Event.parsesOneOf]

theorem Event.parsesOneOf_mono {ls ls' : List (List UInt8)} (h : ls ⊆ ls') (e : Event)
    (he : e.parsesOneOf ls = true) : e.parsesOneOf ls' = true := by
  cases e with
  | parse line => simpa [Event.parsesOneOf] using h (by simpa [Event.parsesOneOf] using he)
  | _ => rfl

section
variable {σ : Type}

theorem EpochTrace.parsesOneOf {line : List UInt8} {stop : Bool} {w w' : World σ}
    (h : EpochTrace line stop w w') {ls : List (List UInt8)} (hLine : line ∈ ls) :
    World.Adds (Event.parsesOneOf ls) w w' := by
  obtain ⟨δ₁, δ₂, hδ, hp₁, hp₂⟩ := h
  refine ⟨δ₁ ++ ((if stop then [.close] else []) ++ δ₂), by rw [hδ, List.append_assoc],
    fun e he => ?_⟩
  rcases List.mem_append.mp he with he | he
  · rcases hp₁ e he with hInner | rfl
    · exact Event.parsesOneOf_of_inner hInner ls
    · simpa [Event.parsesOneOf] using hLine
  · have hNoParse : ∀ l, e ≠ .parse l := by
      rintro l rfl
      rcases List.mem_append.mp he with he | he
      · split_ifs at he <;> simp at he
      · simpa [Event.tidy] using hp₂ _ he
    cases e with
    | parse l => exact absurd rfl (hNoParse l)
    | _ => rfl

theorem frameTooLarge_adds (lib : JsonLib) (conn : JsonrpcConn σ) (w : World σ)
    (ls : List (List UInt8)) : World.Adds (Event.parsesOneOf ls) w (frameTooLarge lib conn w) := by
  have hSend := (jsonrpcConnSendError_inner lib (some conn) none jsonrpcErrInvalidRequest
    (some "Request too large") w []).adds.mono fun e he => Event.parsesOneOf_of_inner he ls
  unfold frameTooLarge
  split_ifs
  · exact hSend.trans (.emit _ .close rfl)
  · exact hSend

theorem frameLines_parses (lib : JsonLib) (conn : JsonrpcConn σ) (ls : List (List UInt8)) :
    ∀ w : World σ, World.Adds (Event.parsesOneOf (ls.map stripCR)) w (frameLines lib conn ls w).2 := by
  induction ls with
  | nil => intro w; exact .of_eq rfl
  | cons raw ls ih =>
    intro w
    have hSub : ls.map stripCR ⊆ (raw :: ls).map stripCR := by simp
    have hRaw : stripCR raw ∈ (raw :: ls).map stripCR := by simp
    simp only [frameLines]
    split_ifs
    · exact (ih w).mono (Event.parsesOneOf_mono hSub)
    · exact frameTooLarge_adds lib conn w _
    · rcases hEpoch : jsonrpcMessageEpoch lib conn (stripCR raw) w with ⟨_ | _, w₁⟩
      · exact ((jsonrpcMessageEpoch_spec hEpoch).2.parsesOneOf hRaw).trans
          ((ih w₁).mono (Event.parsesOneOf_mono hSub))
      · exact (jsonrpcMessageEpoch_spec hEpoch).2.parsesOneOf hRaw

/-- The buffer holds what the accepted appends brought after a line boundary. -/
structure LineAligned (conn : JsonrpcConn σ) : Prop where
  inv : conn.inbound.Inv
  aligned : ∃ done, acceptedInput conn.appends = done ++ conn.inbound.bytes ∧ (lines done).2 = []

theorem LineAligned.start (transport : Transport) (callbacks : Callbacks σ) (heap : Heap)
    (arena : Option Nat) : LineAligned (jsonrpcConnNew transport callbacks heap arena) :=
  ⟨RpcBuffer.empty_inv, [], by simp [jsonrpcConnNew, acceptedInput, RpcBuffer.bytes,
    RpcBuffer.empty, readBytes], rfl⟩

theorem LineAligned.feed {conn : JsonrpcConn σ} (h : LineAligned conn) (lib : JsonLib)
    {data : List UInt8} (hData : data.length ≤ sizeMax - maxBufferBytes) (w : World σ) :
    LineAligned (jsonrpcConnFeed lib conn data w).1 ∧
      World.Adds (Event.parsesOneOf
        ((lines (acceptedInput (jsonrpcConnFeed lib conn data w).1.appends)).1.map stripCR))
        w (jsonrpcConnFeed lib conn data w).2 := by
  obtain ⟨hInv, done, hDone, hBoundary⟩ := h
  by_cases hFeed : data.length = 0 ∨ conn.closed = true
  · simp only [jsonrpcConnFeed, if_pos hFeed]
    exact ⟨⟨hInv, done, hDone, hBoundary⟩, .of_eq rfl⟩
  cases hAcc : (rpcBufferAppend conn.inbound conn.heap data).1 with
  | true =>
    obtain ⟨hW, -, -, hI, ⟨done', hD', hBoundary'⟩, -⟩ :=
      jsonrpcConnFeed_accepted lib w hInv hData hFeed hAcc
    have hAccepted : acceptedInput (jsonrpcConnFeed lib conn data w).1.appends =
        done ++ (conn.inbound.bytes ++ data) := by
      rw [jsonrpcConnFeed_appends, if_neg hFeed, hAcc]
      simp [hDone]
    refine ⟨⟨hI, done ++ done', by rw [hAccepted, hD', List.append_assoc],
      by rw [lines_append_of_boundary hBoundary]; exact hBoundary'⟩, ?_⟩
    rw [hW, hAccepted, lines_append_of_boundary hBoundary]
    exact (frameLines_parses lib conn _ w).mono
      (Event.parsesOneOf_mono (List.map_subset _ (List.subset_append_right _ _)))
  | false =>
    obtain ⟨-, hRejected, -, -⟩ := rpcBufferAppend_spec hInv conn.heap hData
    unfold jsonrpcConnFeed
    rw [if_neg hFeed]
    generalize rpcBufferAppend conn.inbound conn.heap data = r at hAcc hRejected
    obtain ⟨accepted, inbound, heap⟩ := r
    dsimp only at hAcc hRejected ⊢
    subst hAcc
    obtain rfl := hRejected rfl
    refine ⟨⟨hInv, done, by simpa using hDone, hBoundary⟩, ?_⟩
    rw [Bool.not_false, if_pos rfl, jsonrpcRequestTooLarge_eq_frameTooLarge]
    exact frameTooLarge_adds lib _ w _

theorem LineAligned.feed_chunks (lib : JsonLib) (chunks : List (List UInt8)) :
    ∀ {conn : JsonrpcConn σ} (w : World σ), LineAligned conn →
      (∀ c ∈ chunks, c.length ≤ sizeMax - maxBufferBytes) →
      LineAligned (feedChunks lib chunks (conn, w)).1 ∧
        World.Adds (Event.parsesOneOf
          ((lines (acceptedInput (feedChunks lib chunks (conn, w)).1.appends)).1.map stripCR))
          w (feedChunks lib chunks (conn, w)).2 := by
  induction chunks with
  | nil => intro conn w h _; exact ⟨h, .of_eq rfl⟩
  | cons chunk chunks ih =>
    intro conn w h hBounded
    obtain ⟨h₁, hAdds₁⟩ := h.feed lib (hBounded chunk (by simp)) w
    obtain ⟨h₂, hAdds₂⟩ :=
      ih (jsonrpcConnFeed lib conn chunk w).2 h₁ fun c hc => hBounded c (by simp [hc])
    have hSub := (lines_fst_mono (acceptedInput_mono
      (feedChunks_appends lib chunks (jsonrpcConnFeed lib conn chunk w).1
        (jsonrpcConnFeed lib conn chunk w).2))).subset
    exact ⟨h₂, (hAdds₁.mono (Event.parsesOneOf_mono (List.map_subset _ hSub))).trans hAdds₂⟩

/-- Fed any chunks, a fresh connection parses only complete lines of the input it accepted. -/
theorem feedChunks_parses_accepted_lines (lib : JsonLib) (transport : Transport)
    (callbacks : Callbacks σ) (heap : Heap) (arena : Option Nat) (chunks : List (List UInt8))
    (w : World σ) {conn : JsonrpcConn σ} {w' : World σ}
    (hRun : feedChunks lib chunks (jsonrpcConnNew transport callbacks heap arena, w) = (conn, w'))
    (hBounded : ∀ c ∈ chunks, c.length ≤ sizeMax - maxBufferBytes) :
    (∃ δ, w'.trace = w.trace ++ δ ∧
      ∀ line, Event.parse line ∈ δ → line ∈ (lines (acceptedInput conn.appends)).1.map stripCR) ∧
      ∃ done, acceptedInput conn.appends = done ++ conn.inbound.bytes ∧ (lines done).2 = [] := by
  have h := (LineAligned.start transport callbacks heap arena).feed_chunks lib chunks w hBounded
  rw [hRun] at h
  obtain ⟨⟨-, hAligned⟩, δ, hδ, hp⟩ := h
  exact ⟨⟨δ, hδ, fun line hl => by simpa [Event.parsesOneOf] using hp _ hl⟩, hAligned⟩

theorem feedChunks_parses_accepted_lines_three_chunks :
    (∃ δ, (feedChunks ⟨fun _ => none, fun _ => []⟩ [[49], [10, 50, 13, 10], [51]]
          (jsonrpcConnNew ⟨true, true⟩ (⟨none, none⟩ : Callbacks Unit) ⟨[], 0, []⟩ none,
            ⟨(), [], 0, none, []⟩)).2.trace = (⟨(), [], 0, none, []⟩ : World Unit).trace ++ δ ∧
      ∀ line, Event.parse line ∈ δ → line ∈ (lines (acceptedInput
        (feedChunks ⟨fun _ => none, fun _ => []⟩ [[49], [10, 50, 13, 10], [51]]
          (jsonrpcConnNew ⟨true, true⟩ (⟨none, none⟩ : Callbacks Unit) ⟨[], 0, []⟩ none,
            ⟨(), [], 0, none, []⟩)).1.appends)).1.map stripCR) ∧
      ∃ done, acceptedInput (feedChunks ⟨fun _ => none, fun _ => []⟩ [[49], [10, 50, 13, 10], [51]]
          (jsonrpcConnNew ⟨true, true⟩ (⟨none, none⟩ : Callbacks Unit) ⟨[], 0, []⟩ none,
            ⟨(), [], 0, none, []⟩)).1.appends =
        done ++ (feedChunks ⟨fun _ => none, fun _ => []⟩ [[49], [10, 50, 13, 10], [51]]
          (jsonrpcConnNew ⟨true, true⟩ (⟨none, none⟩ : Callbacks Unit) ⟨[], 0, []⟩ none,
            ⟨(), [], 0, none, []⟩)).1.inbound.bytes ∧ (lines done).2 = [] :=
  feedChunks_parses_accepted_lines ⟨fun _ => none, fun _ => []⟩ ⟨true, true⟩ ⟨none, none⟩
    ⟨[], 0, []⟩ none [[49], [10, 50, 13, 10], [51]] ⟨(), [], 0, none, []⟩ rfl (by decide)

theorem feedChunks_cons (lib : JsonLib) (chunk : List UInt8) (chunks : List (List UInt8))
    (s : JsonrpcConn σ × World σ) :
    feedChunks lib (chunk :: chunks) s = feedChunks lib chunks (jsonrpcConnFeed lib s.1 chunk s.2) :=
  rfl

theorem feedChunks_over (lib : JsonLib) (data : List UInt8) (chunks : List (List UInt8))
    (s : JsonrpcConn σ × World σ) (hOpen : s.1.closed = false) (hData : data.length ≠ 0)
    (hOver : maxBufferBytes < (s.1.inbound.len + data.length) % 2 ^ 64) :
    feedChunks lib (data :: chunks) s =
      feedChunks lib chunks
        ({ s.1 with appends := s.1.appends ++ [(data, false)] }, jsonrpcRequestTooLarge lib s.1 s.2) := by
  have hAppend : rpcBufferAppend s.1.inbound s.1.heap data = (false, s.1.inbound, s.1.heap) := by
    unfold rpcBufferAppend
    rw [if_neg hData]
    exact if_pos hOver
  rw [feedChunks_cons, jsonrpcConnFeed, if_neg (by simp [hData, hOpen]), hAppend]
  rfl

theorem splice_not_line {big : List UInt8} (hBig : (10 : UInt8) ∉ big) (hNe : big ≠ []) :
    [97, 98] ∉ (lines [[97], big, [98, 10]].flatten).1.map stripCR := by
  have hl : (10 : UInt8) ∉ 97 :: (big ++ [98]) := by simp [hBig]
  have hJoin : [[97], big, [98, 10]].flatten = (97 :: (big ++ [98])) ++ 10 :: [] := by simp
  have hLast : (97 :: (big ++ [98])).getLast? = some 98 := by
    rw [← List.cons_append, List.getLast?_concat]
  rw [hJoin, lines, linesFrom_newline hl]
  simp [lines, linesFrom, stripCR, hLast, hNe]

/-- Fed `a`, two MiB that the buffer rejects, then `b\n`, the connection parses `ab`. -/
theorem feedChunks_splices_rejected_gap :
    Event.parse [97, 98] ∈ (feedChunks ⟨fun _ => none, fun _ => []⟩
        [[97], List.replicate 2097152 0, [98, 10]]
        (jsonrpcConnNew ⟨true, true⟩ (⟨none, none⟩ : Callbacks Unit) ⟨[], 0, []⟩ none,
          ⟨(), [], 0, none, []⟩)).2.trace ∧
      [97, 98] ∉ (lines [[97], List.replicate 2097152 0, [98, 10]].flatten).1.map stripCR := by
  refine ⟨?_, splice_not_line (by rw [List.mem_replicate]; decide)
    (by rw [Ne, List.replicate_eq_nil_iff]; decide)⟩
  rw [feedChunks_cons, feedChunks_over]
  · decide
  · decide
  · rw [List.length_replicate]; decide
  · rw [List.length_replicate]; decide

/-- `data` holds its `n` bytes, so `len + n` cannot wrap: appends stay within capacity. -/
theorem rpcBufferAppend_within_capacity {b : RpcBuffer} (hb : b.Inv) (h : Heap)
    {data : List UInt8} (hData : data.length ≤ sizeMax - maxBufferBytes) :
    ((rpcBufferAppend b h data).1 = true →
        b.len + data.length ≤ maxBufferBytes ∧
          (rpcBufferAppend b h data).2.1.len = b.len + data.length ∧
          (rpcBufferAppend b h data).2.1.len ≤ (rpcBufferAppend b h data).2.1.cap) ∧
      ∀ (lib : JsonLib) (conn : JsonrpcConn σ) (w : World σ), conn.inbound = b → conn.heap = h →
        (jsonrpcConnFeed lib conn data w).1.appends = conn.appends ++ [(data, true)] →
          b.len + data.length ≤ maxBufferBytes ∧ (jsonrpcConnFeed lib conn data w).1.inbound.Inv := by
  obtain ⟨hAcc, -, hInv, hBytes⟩ := rpcBufferAppend_spec hb h hData
  have hBuffer : (rpcBufferAppend b h data).1 = true →
      b.len + data.length ≤ maxBufferBytes ∧
        (rpcBufferAppend b h data).2.1.len = b.len + data.length ∧
        (rpcBufferAppend b h data).2.1.len ≤ (rpcBufferAppend b h data).2.1.cap := fun hTrue => by
    rw [hTrue, if_pos rfl] at hBytes
    have hLen := congrArg List.length hBytes
    simp only [RpcBuffer.bytes, readBytes_length, List.length_append] at hLen
    exact ⟨(hAcc.mp hTrue).1, hLen, hInv.len_le_cap⟩
  refine ⟨hBuffer, fun lib conn w hIn hHeap hApp => ?_⟩
  subst hIn hHeap
  rw [jsonrpcConnFeed_appends] at hApp
  split_ifs at hApp with hFeed
  · exact absurd (congrArg List.length hApp) (by simp)
  · have hTrue : (rpcBufferAppend conn.inbound conn.heap data).1 = true := by
      simpa using List.append_cancel_left hApp
    exact ⟨(hBuffer hTrue).1, (jsonrpcConnFeed_accepted lib w hb hData hFeed hTrue).2.2.2.1⟩

theorem rpcBufferAppend_within_capacity_second_chunk :
    ((rpcBufferAppend (runBuffer [.append [49]] (RpcBuffer.empty, ⟨[], 0, []⟩)).1
          (runBuffer [.append [49]] (RpcBuffer.empty, ⟨[], 0, []⟩)).2 [50, 10]).1 = true →
        (runBuffer [.append [49]] (RpcBuffer.empty, ⟨[], 0, []⟩)).1.len + [50, 10].length ≤
            maxBufferBytes ∧
          (rpcBufferAppend (runBuffer [.append [49]] (RpcBuffer.empty, ⟨[], 0, []⟩)).1
              (runBuffer [.append [49]] (RpcBuffer.empty, ⟨[], 0, []⟩)).2 [50, 10]).2.1.len =
            (runBuffer [.append [49]] (RpcBuffer.empty, ⟨[], 0, []⟩)).1.len + [50, 10].length ∧
          (rpcBufferAppend (runBuffer [.append [49]] (RpcBuffer.empty, ⟨[], 0, []⟩)).1
              (runBuffer [.append [49]] (RpcBuffer.empty, ⟨[], 0, []⟩)).2 [50, 10]).2.1.len ≤
            (rpcBufferAppend (runBuffer [.append [49]] (RpcBuffer.empty, ⟨[], 0, []⟩)).1
              (runBuffer [.append [49]] (RpcBuffer.empty, ⟨[], 0, []⟩)).2 [50, 10]).2.1.cap) ∧
      ∀ (lib : JsonLib) (conn : JsonrpcConn Unit) (w : World Unit),
        conn.inbound = (runBuffer [.append [49]] (RpcBuffer.empty, ⟨[], 0, []⟩)).1 →
        conn.heap = (runBuffer [.append [49]] (RpcBuffer.empty, ⟨[], 0, []⟩)).2 →
        (jsonrpcConnFeed lib conn [50, 10] w).1.appends = conn.appends ++ [([50, 10], true)] →
          (runBuffer [.append [49]] (RpcBuffer.empty, ⟨[], 0, []⟩)).1.len + [50, 10].length ≤
              maxBufferBytes ∧
            (jsonrpcConnFeed lib conn [50, 10] w).1.inbound.Inv :=
  rpcBufferAppend_within_capacity
    (runBuffer_inv (by simp [BufferOp.Bounded, sizeMax, maxBufferBytes]) RpcBuffer.empty_inv) _
    (by decide)

theorem jsonrpcFeedLoop_consumes (lib : JsonLib) (fuel : Nat) :
    ∀ (conn : JsonrpcConn σ) (w : World σ), ∃ counts : List Nat,
      ((jsonrpcFeedLoop lib fuel conn w).1.inbound, (jsonrpcFeedLoop lib fuel conn w).1.heap) =
        runBuffer (counts.map .consume) (conn.inbound, conn.heap) := by
  induction fuel with
  | zero => intro conn w; exact ⟨[], rfl⟩
  | succ fuel ih =>
    intro conn w
    simp only [jsonrpcFeedLoop]
    split
    · exact ⟨[], rfl⟩
    · rename_i newlineIndex _
      split_ifs
      · obtain ⟨counts, h⟩ := ih _ w
        exact ⟨(newlineIndex + 1) :: counts, h⟩
      · exact ⟨[], rfl⟩
      · split
        · exact ⟨[newlineIndex + 1], rfl⟩
        · obtain ⟨counts, h⟩ := ih _ _
          exact ⟨(newlineIndex + 1) :: counts, h⟩

theorem jsonrpcConnFeed_buffer_run (lib : JsonLib) (conn : JsonrpcConn σ) {data : List UInt8}
    (hData : data.length ≤ sizeMax - maxBufferBytes) (w : World σ) :
    ∃ ops : List BufferOp, (∀ op ∈ ops, op.Bounded ∧ op ≠ .free) ∧
      ((jsonrpcConnFeed lib conn data w).1.inbound, (jsonrpcConnFeed lib conn data w).1.heap) =
        runBuffer ops (conn.inbound, conn.heap) := by
  have hAppend : (BufferOp.append data).Bounded ∧ BufferOp.append data ≠ .free := ⟨hData, nofun⟩
  unfold jsonrpcConnFeed
  split_ifs
  · exact ⟨[], nofun, rfl⟩
  · generalize hr : rpcBufferAppend conn.inbound conn.heap data = r
    obtain ⟨accepted, inbound, heap⟩ := r
    dsimp only
    split_ifs
    · exact ⟨[.append data], by simpa using hAppend, by simp [runBuffer, BufferOp.apply, hr]⟩
    · obtain ⟨counts, h⟩ := jsonrpcFeedLoop_consumes lib (inbound.len + 1)
        { conn with inbound, heap, appends := conn.appends ++ [(data, accepted)] } w
      refine ⟨.append data :: counts.map .consume, ?_, ?_⟩
      · simp only [List.mem_cons, List.mem_map]
        rintro op (rfl | ⟨count, -, rfl⟩)
        exact hAppend
        exact ⟨trivial, nofun⟩
      · rw [h]
        simp [runBuffer, BufferOp.apply, hr]

theorem feedChunks_buffer_run (lib : JsonLib) (chunks : List (List UInt8)) :
    ∀ (conn : JsonrpcConn σ) (w : World σ), (∀ c ∈ chunks, c.length ≤ sizeMax - maxBufferBytes) →
      ∃ ops : List BufferOp, (∀ op ∈ ops, op.Bounded ∧ op ≠ .free) ∧
        ((feedChunks lib chunks (conn, w)).1.inbound, (feedChunks lib chunks (conn, w)).1.heap) =
          runBuffer ops (conn.inbound, conn.heap) := by
  induction chunks with
  | nil => intro conn w _; exact ⟨[], nofun, rfl⟩
  | cons chunk chunks ih =>
    intro conn w hBounded
    obtain ⟨ops₁, hOps₁, h₁⟩ :=
      jsonrpcConnFeed_buffer_run lib conn (hBounded chunk (List.mem_cons_self _ _)) w
    obtain ⟨ops₂, hOps₂, h₂⟩ := ih (jsonrpcConnFeed lib conn chunk w).1
      (jsonrpcConnFeed lib conn chunk w).2 fun c hc => hBounded c (List.mem_cons_of_mem _ hc)
    refine ⟨ops₁ ++ ops₂, fun op hOp => (List.mem_append.mp hOp).elim (hOps₁ op) (hOps₂ op), ?_⟩
    rw [runBuffer_append, ← h₁]
    exact h₂

/-- Fed any chunks, whatever `calloc` returns, a connection's buffer leaks at most nine blocks. -/
theorem jsonrpcConn_inbound_leak_bounded (lib : JsonLib) (transport : Transport)
    (callbacks : Callbacks σ) (heap : Heap) (arena : Option Nat) (chunks : List (List UInt8))
    (w : World σ) {conn : JsonrpcConn σ} {w' : World σ}
    (hRun : feedChunks lib chunks (jsonrpcConnNew transport callbacks heap arena, w) = (conn, w'))
    (hBounded : ∀ c ∈ chunks, c.length ≤ sizeMax - maxBufferBytes)
    (hHeap : ∀ x ∈ heap.live, x < heap.next) :
    ∃ leaked, leaked.length ≤ 9 ∧
      (conn.heap.live.filter (heap.next ≤ ·)).Perm (conn.inbound.data.toList ++ leaked) ∧
      ((jsonrpcConnFree conn w').1.heap.live.filter (heap.next ≤ ·)).Perm leaked := by
  obtain ⟨ops, hOps, hBuffer⟩ :=
    feedChunks_buffer_run lib chunks (jsonrpcConnNew transport callbacks heap arena) w hBounded
  rw [hRun] at hBuffer
  obtain ⟨leaked, hLength, hLive, hFree⟩ := rpcBuffer_leak_bounded ops hOps heap hHeap
  obtain ⟨hInbound, hHeap'⟩ := Prod.mk.inj hBuffer
  refine ⟨leaked, hLength, ?_, ?_⟩
  · rw [hInbound, hHeap']
    exact hLive
  · show ((rpcBufferFree conn.inbound conn.heap).2.live.filter _).Perm _
    rw [hInbound, hHeap']
    exact hFree

/-- The line `1` empties the buffer, then 4097 bytes regrow it past its first block. -/
theorem jsonrpcConn_inbound_leak_bounded_regrowth :
    ∃ leaked, leaked.length ≤ 9 ∧
      ((feedChunks ⟨fun _ => none, fun _ => []⟩ [[49, 10], List.replicate 4097 32]
          (jsonrpcConnNew ⟨true, true⟩ (⟨none, none⟩ : Callbacks Unit) ⟨[], 0, []⟩ none,
            ⟨(), [], 0, none, []⟩)).1.heap.live.filter (0 ≤ ·)).Perm
        ((feedChunks ⟨fun _ => none, fun _ => []⟩ [[49, 10], List.replicate 4097 32]
          (jsonrpcConnNew ⟨true, true⟩ (⟨none, none⟩ : Callbacks Unit) ⟨[], 0, []⟩ none,
            ⟨(), [], 0, none, []⟩)).1.inbound.data.toList ++ leaked) ∧
      ((jsonrpcConnFree (feedChunks ⟨fun _ => none, fun _ => []⟩ [[49, 10], List.replicate 4097 32]
          (jsonrpcConnNew ⟨true, true⟩ (⟨none, none⟩ : Callbacks Unit) ⟨[], 0, []⟩ none,
            ⟨(), [], 0, none, []⟩)).1
        (feedChunks ⟨fun _ => none, fun _ => []⟩ [[49, 10], List.replicate 4097 32]
          (jsonrpcConnNew ⟨true, true⟩ (⟨none, none⟩ : Callbacks Unit) ⟨[], 0, []⟩ none,
            ⟨(), [], 0, none, []⟩)).2).1.heap.live.filter (0 ≤ ·)).Perm leaked :=
  jsonrpcConn_inbound_leak_bounded ⟨fun _ => none, fun _ => []⟩ ⟨true, true⟩ ⟨none, none⟩
    ⟨[], 0, []⟩ none [[49, 10], List.replicate 4097 32] ⟨(), [], 0, none, []⟩ Prod.mk.eta.symm
    (fun c hc => by
      rcases List.mem_cons.mp hc with rfl | hc
      · decide
      · rw [List.mem_singleton.mp hc, List.length_replicate]
        decide) nofun

end

end JsonRpc
