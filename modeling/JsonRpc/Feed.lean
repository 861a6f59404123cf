import JsonRpc.Dispatch
import JsonRpc.Buffer
import JsonRpc.Scope

/-! # The connection

`jsonrpc_conn_feed` appends the bytes it is given to the inbound buffer and runs one message
epoch per complete line: in a scope of the connection's arena it copies the line out, parses
it, dispatches it and sends the response. `jsonrpc_conn_send_error` and
`jsonrpc_conn_send_result` build and send one response in a scope of their own.
-/

namespace JsonRpc
set_option autoImplicit false

/-- `jsonrpc_conn_t`, with its buffer's allocator and, as ghost state, every append it took. -/
structure JsonrpcConn (σ : Type) where
  transport : Transport
  callbacks : Callbacks σ
  closed : Bool
  inbound : RpcBuffer
  heap : Heap
  arena : Option Nat
  appends : List (List UInt8 × Bool)

section
variable {σ : Type}

def jsonrpcConnNew (transport : Transport) (callbacks : Callbacks σ) (heap : Heap)
    (arena : Option Nat) : JsonrpcConn σ :=
  ⟨transport, callbacks, false, RpcBuffer.empty, heap, arena, []⟩

/-- `jsonrpc_conn_free` up to its final `free`: the only writer of `closed`. -/
def jsonrpcConnFree (conn : JsonrpcConn σ) (w : World σ) : JsonrpcConn σ × World σ :=
  let (inbound, heap) := rpcBufferFree conn.inbound conn.heap
  ({ conn with closed := true, inbound, heap, arena := none },
    if conn.arena.isSome ∧ w.current = conn.arena then { w with current := none } else w)

def World.scopeBegin (arena : Option Nat) (w : World σ) : JsonrpcArenaScope × World σ :=
  let (scope, current) := jsonrpcArenaScopeBegin w.current arena
  (scope, { w with current })

def World.scopeEnd (arena : Option Nat) (scope : JsonrpcArenaScope) (w : World σ) : World σ :=
  let (current, cleared) := jsonrpcArenaScopeEnd w.current arena scope
  match cleared with
  | some a => { w with current }.emit (.arenaClear a)
  | none => { w with current }

def jsonrpcConnSendError (lib : JsonLib) (conn : Option (JsonrpcConn σ)) (id : Option JsonValue)
    (code : Int) (message : Option String) (w : World σ) : Bool × World σ :=
  match conn with
  | none => (false, w)
  | some conn =>
    let (scope, w) := w.scopeBegin conn.arena
    match jsonrpcBuildError id code message w with
    | (none, w) => (false, w.scopeEnd conn.arena scope)
    | (some response, w) =>
      let (sent, w) := jsonrpcSendValue lib conn.transport response w
      (sent, (jsonValueFree response w).scopeEnd conn.arena scope)

def jsonrpcConnSendResult (lib : JsonLib) (conn : Option (JsonrpcConn σ))
    (id : Option JsonValue) (result : Option JsonValue) (w : World σ) : Bool × World σ :=
  let (result, w) := World.take result w
  match conn, result with
  | some conn, some result =>
    let (scope, w) := w.scopeBegin conn.arena
    match jsonrpcBuildResult id (some result) w with
    | (none, w) => (false, w.scopeEnd conn.arena scope)
    | (some response, w) =>
      let (sent, w) := jsonrpcSendValue lib conn.transport response w
      (sent, (jsonValueFree response w).scopeEnd conn.arena scope)
  | _, result => (false, w.freeOpt result)

/-- `json_parse_string` on the copied line, read as a C string; its allocations fail together. -/
def jsonParseString (lib : JsonLib) (line : List UInt8) (w : World σ) :
    Option JsonValue × World σ :=
  match (w.emit (.parse line)).alloc with
  | (true, w) => (lib.parse (line.takeWhile (· ≠ 0)), w)
  | (false, w) => (none, w)

/-- `if (!sent && conn->transport.close != nullptr)`: close, and the connection must stop. -/
def jsonrpcCloseOnFailure (transport : Transport) (sent : Bool) (w : World σ) : Bool × World σ :=
  if !sent ∧ transport.close then (true, w.emit .close) else (false, w)

/-- One message epoch of `jsonrpc_conn_feed` on a line; whether the connection must stop. -/
def jsonrpcMessageEpoch (lib : JsonLib) (conn : JsonrpcConn σ) (line : List UInt8)
    (w : World σ) : Bool × World σ :=
  let (scope, w) := w.scopeBegin conn.arena
  match w.alloc with
  | (false, w) =>
    let (sent, w) := jsonrpcConnSendError lib (some conn) none jsonrpcErrInternal none w
    let (stop, w) := jsonrpcCloseOnFailure conn.transport sent w
    (stop, w.scopeEnd conn.arena scope)
  | (true, w) =>
    match jsonParseString lib line w with
    | (none, w) =>
      let (sent, w) := jsonrpcConnSendError lib (some conn) none jsonrpcErrParse none w
      let (stop, w) := jsonrpcCloseOnFailure conn.transport sent w
      (stop, w.scopeEnd conn.arena scope)
    | (some request, w) =>
      match jsonrpcProcessValue conn.callbacks (some request) w with
      | (none, w) => (false, (jsonValueFree ⟨request, []⟩ w).scopeEnd conn.arena scope)
      | (some response, w) =>
        let (sent, w) := jsonrpcSendValue lib conn.transport response w
        let (stop, w) := jsonrpcCloseOnFailure conn.transport sent w
        (stop, (jsonValueFree ⟨request, []⟩ (jsonValueFree response w)).scopeEnd conn.arena scope)

def jsonrpcRequestTooLarge (lib : JsonLib) (conn : JsonrpcConn σ) (w : World σ) : World σ :=
  let (sent, w) := jsonrpcConnSendError lib (some conn) none jsonrpcErrInvalidRequest
    (some "Request too large") w
  if !sent ∧ conn.transport.close then w.emit .close
  else if conn.transport.close then w.emit .close else w

def memchr (s : List UInt8) (c : UInt8) : Option Nat :=
  match s with
  | [] => none
  | b :: s => if b = c then some 0 else (memchr s c).map (· + 1)

theorem memchr_eq_none {s : List UInt8} {c : UInt8} : memchr s c = none ↔ c ∉ s := by
  induction s with
  | nil => simp [memchr]
  | cons b s ih =>
    by_cases hb : b = c
    · simp [memchr, hb]
    · simp [memchr, hb, ih, Ne.symm hb]

theorem memchr_eq_some {s : List UInt8} {c : UInt8} {i : Nat} (h : memchr s c = some i) :
    ∃ l rest, s = l ++ c :: rest ∧ c ∉ l ∧ l.length = i := by
  induction s generalizing i with
  | nil => simp [memchr] at h
  | cons b s ih =>
    unfold memchr at h
    split_ifs at h with hb
    · cases h
      exact ⟨[], s, by simp [hb], by simp, rfl⟩
    · obtain ⟨j, hj, rfl⟩ := Option.map_eq_some'.mp h
      obtain ⟨l, rest, rfl, hl, rfl⟩ := ih hj
      exact ⟨b :: l, rest, rfl, by simp [Ne.symm hb, hl], rfl⟩

def jsonrpcLineLen (mem : Nat → UInt8) (newlineIndex : Nat) : Nat :=
  if 0 < newlineIndex ∧ mem (newlineIndex - 1) = 13 then newlineIndex - 1 else newlineIndex

/-- The `while (true)` loop of `jsonrpc_conn_feed`; fuel above the buffer's length runs it out. -/
def jsonrpcFeedLoop (lib : JsonLib) : Nat → JsonrpcConn σ → World σ → JsonrpcConn σ × World σ
  | 0, conn, w => (conn, w)
  | fuel + 1, conn, w =>
    match memchr conn.inbound.bytes 10 with
    | none => (conn, w)
    | some newlineIndex =>
      let lineLen := jsonrpcLineLen conn.inbound.mem newlineIndex
      let rest := { conn with inbound := rpcBufferConsume conn.inbound (newlineIndex + 1) }
      if lineLen = 0 then jsonrpcFeedLoop lib fuel rest w
      else if maxMessageBytes < lineLen then (conn, jsonrpcRequestTooLarge lib conn w)
      else
        match jsonrpcMessageEpoch lib rest (readBytes conn.inbound.mem 0 lineLen) w with
        | (true, w) => (rest, w)
        | (false, w) => jsonrpcFeedLoop lib fuel rest w

def jsonrpcConnFeed (lib : JsonLib) (conn : JsonrpcConn σ) (data : List UInt8) (w : World σ) :
    JsonrpcConn σ × World σ :=
  if data.length = 0 ∨ conn.closed then (conn, w)
  else
    let (accepted, inbound, heap) := rpcBufferAppend conn.inbound conn.heap data
    let conn := { conn with inbound, heap, appends := conn.appends ++ [(data, accepted)] }
    if !accepted then (conn, jsonrpcRequestTooLarge lib conn w)
    else jsonrpcFeedLoop lib (conn.inbound.len + 1) conn w

def feedChunks (lib : JsonLib) : List (List UInt8) → JsonrpcConn σ × World σ →
    JsonrpcConn σ × World σ
  | [], s => s
  | chunk :: chunks, (conn, w) => feedChunks lib chunks (jsonrpcConnFeed lib conn chunk w)

@[simp] theorem World.scopeBegin_trace (arena : Option Nat) (w : World σ) :
    (w.scopeBegin arena).2.trace = w.trace := rfl

@[simp] theorem World.scopeBegin_handles (arena : Option Nat) (w : World σ) :
    (w.scopeBegin arena).2.handles = w.handles := rfl

@[simp] theorem World.scopeBegin_faults (arena : Option Nat) (w : World σ) :
    (w.scopeBegin arena).2.faults = w.faults := rfl

theorem World.Inner.scoped {w w₁ w₂ : World σ} {arena : Option Nat} {scope : JsonrpcArenaScope}
    {a b : List Nat} (hBegin : w.scopeBegin arena = (scope, w₁)) (h : World.Inner w₁ w₂ a b) :
    World.Inner w (w₂.scopeEnd arena scope) a b := by
  have e₁ := congrArg Prod.snd hBegin
  have e₂ := congrArg Prod.fst hBegin
  dsimp only at e₁ e₂
  subst e₁ e₂
  have hRestore : (jsonrpcArenaScopeEnd w₂.current arena (w.scopeBegin arena).1).1 = w.current := by
    rw [h.current]
    exact jsonrpcArenaScopeEnd_begin w.current arena
  have hLedger : World.Ledger w w₂ a b :=
    (World.Ledger.of_eq a rfl rfl : World.Ledger w (w.scopeBegin arena).2 a a).trans h.toLedger
  have hAdds : World.Adds Event.inner w w₂ :=
    (World.Adds.of_eq rfl : World.Adds Event.inner w (w.scopeBegin arena).2).trans h.adds
  unfold World.scopeEnd
  rcases hEnd : jsonrpcArenaScopeEnd w₂.current arena (w.scopeBegin arena).1 with ⟨current, cleared⟩
  rw [hEnd] at hRestore
  cases cleared with
  | none => exact ⟨hLedger.trans (.of_eq b rfl rfl), hRestore, hAdds.trans (.of_eq rfl)⟩
  | some cleared =>
    dsimp only
    have hUnbind : World.Ledger w₂ { w₂ with current } b b := .of_eq b rfl rfl
    exact ⟨hLedger.trans (hUnbind.trans (.emit _ b (.arenaClear cleared) rfl rfl rfl)), hRestore,
      hAdds.trans ((World.Adds.of_eq rfl : World.Adds Event.inner w₂ { w₂ with current }).trans
        (.emit _ (.arenaClear cleared) rfl))⟩

theorem jsonrpcConnSendError_inner (lib : JsonLib) (conn : Option (JsonrpcConn σ))
    (id : Option JsonValue) (code : Int) (message : Option String) (w : World σ) (a : List Nat) :
    World.Inner w (jsonrpcConnSendError lib conn id code message w).2 a a := by
  unfold jsonrpcConnSendError
  split
  · exact .refl w a
  · rename_i conn
    rcases hBegin : w.scopeBegin conn.arena with ⟨scope, w₀⟩
    dsimp only
    obtain ⟨hBuild, hNil⟩ := jsonrpcBuildError_inner id code message w₀ a
    split
    · rename_i w₁ h
      rw [h] at hBuild
      exact .scoped hBegin hBuild
    · rename_i response w₁ h
      rw [h] at hBuild hNil
      exact .scoped hBegin
        ((hBuild.trans (jsonrpcSendValue_inner lib conn.transport response w₁ a)).then_free_plain hNil)

theorem jsonrpcConnSendResult_inner_taken (lib : JsonLib) (conn : Option (JsonrpcConn σ))
    (id : Option JsonValue) (result : Option JsonValue) (w : World σ) :
    World.Inner (World.take result w).2 (jsonrpcConnSendResult lib conn id result w).2
      (heldHandles (World.take result w).1) [] := by
  unfold jsonrpcConnSendResult
  generalize World.take result w = taken
  obtain ⟨result, w₁⟩ := taken
  dsimp only
  split
  · rename_i conn result
    rcases hBegin : w₁.scopeBegin conn.arena with ⟨scope, w₀⟩
    dsimp only
    have hBuild := jsonrpcBuildResult_inner id (some result) w₀ []
    split
    · rename_i h
      exact .scoped hBegin (by simpa [h] using hBuild)
    · rename_i response w₂ h
      simp only [h, heldHandles_some, List.append_nil] at hBuild
      exact .scoped hBegin ((hBuild.trans (jsonrpcSendValue_inner lib conn.transport response w₂ _)).then_free
        response (List.append_nil _).symm)
  · simpa using World.freeOpt_inner result w₁ []

theorem jsonrpcConnSendResult_inner (lib : JsonLib) (conn : Option (JsonrpcConn σ))
    (id : Option JsonValue) (result : Option JsonValue) (w : World σ) :
    World.Inner w (jsonrpcConnSendResult lib conn id result w).2 [] [] :=
  (World.take_inner result w).trans (jsonrpcConnSendResult_inner_taken lib conn id result w)

def Event.tidy : Event → Bool
  | .release _ | .arenaClear _ => true
  | _ => false

/-- What an epoch on `line` adds: its calls, `close` exactly when it stops, then only tidying. -/
def EpochTrace (line : List UInt8) (stop : Bool) (w w' : World σ) : Prop :=
  ∃ δ₁ δ₂, w'.trace = w.trace ++ δ₁ ++ ((if stop then [.close] else []) ++ δ₂) ∧
    (∀ e ∈ δ₁, e.inner = true ∨ e = .parse line) ∧ ∀ e ∈ δ₂, e.tidy = true

theorem World.scopeEnd_ledger (arena : Option Nat) (scope : JsonrpcArenaScope) (w : World σ)
    (a : List Nat) : World.Ledger w (w.scopeEnd arena scope) a a := by
  unfold World.scopeEnd
  rcases jsonrpcArenaScopeEnd w.current arena scope with ⟨current, _ | cleared⟩
  · exact .of_eq a rfl rfl
  · exact (World.Ledger.of_eq a rfl rfl : World.Ledger w { w with current } a a).trans
      (.emit _ a (.arenaClear cleared) rfl rfl rfl)

theorem World.scopeEnd_adds (arena : Option Nat) (scope : JsonrpcArenaScope) (w : World σ) :
    World.Adds Event.tidy w (w.scopeEnd arena scope) := by
  unfold World.scopeEnd
  rcases jsonrpcArenaScopeEnd w.current arena scope with ⟨current, _ | cleared⟩
  · exact .of_eq rfl
  · exact (World.Adds.of_eq rfl : World.Adds Event.tidy w { w with current }).trans
      (.emit _ (.arenaClear cleared) rfl)

theorem jsonrpcCloseOnFailure_eq (transport : Transport) (sent : Bool) (w : World σ) :
    jsonrpcCloseOnFailure transport sent w =
      (!sent && transport.close, if !sent && transport.close then w.emit .close else w) := by
  unfold jsonrpcCloseOnFailure
  split_ifs <;> simp_all

namespace EpochTrace

variable {line : List UInt8} {w w₁ w₂ : World σ}

theorem close (h : World.Adds (fun e => e.inner || decide (e = .parse line)) w w₁) (stop : Bool) :
    EpochTrace line stop w (if stop then w₁.emit .close else w₁) := by
  obtain ⟨δ, hδ, hp⟩ := h
  refine ⟨δ, [], ?_, fun e he => by simpa using hp e he, by simp⟩
  split_ifs <;> simp [hδ]

theorem then_tidy {stop : Bool} (h : EpochTrace line stop w w₁) (h₂ : World.Adds Event.tidy w₁ w₂) :
    EpochTrace line stop w w₂ := by
  obtain ⟨δ₁, δ₂, hδ, hp₁, hp₂⟩ := h
  obtain ⟨δ, hδ', hp⟩ := h₂
  refine ⟨δ₁, δ₂ ++ δ, by simp [hδ', hδ], hp₁, fun e he => ?_⟩
  rcases List.mem_append.mp he with he | he
  exacts [hp₂ e he, hp e he]

end EpochTrace

theorem World.Adds.inner_parse {line : List UInt8} {w w' : World σ}
    (h : World.Adds Event.inner w w') : World.Adds (fun e => e.inner || decide (e = .parse line)) w w' := by
  obtain ⟨δ, hδ, hp⟩ := h
  exact ⟨δ, hδ, fun e he => by simp [hp e he]⟩

theorem World.Ledger.closeIf (stop : Bool) (w : World σ) (a : List Nat) :
    World.Ledger w (if stop then w.emit .close else w) a a := by
  split_ifs
  exacts [.emit _ a .close rfl rfl rfl, .of_eq a rfl rfl]

theorem jsonParseString_of_faults_nil (lib : JsonLib) (line : List UInt8) {w : World σ}
    (h : w.faults = []) :
    jsonParseString lib line w = (lib.parse (line.takeWhile (· ≠ 0)), w.emit (.parse line)) := by
  simp [jsonParseString, World.alloc_of_faults_nil (show (w.emit (.parse line)).faults = [] from h)]

theorem jsonParseString_spec (lib : JsonLib) (line : List UInt8) (w : World σ) :
    World.Ledger w (jsonParseString lib line w).2 [] [] ∧
      World.Adds (fun e => e.inner || decide (e = .parse line)) w (jsonParseString lib line w).2 := by
  have hL := (World.Ledger.emit w [] (.parse line) rfl rfl rfl).trans (World.Inner.alloc _ []).toLedger
  have hA : World.Adds (fun e => e.inner || decide (e = .parse line)) w
      (w.emit (.parse line)).alloc.2 :=
    (World.Adds.emit w (.parse line) (by simp)).trans
      (World.Inner.alloc (w.emit (.parse line)) []).adds.inner_parse
  unfold jsonParseString
  split <;> rename_i h <;> rw [World.eq_alloc_snd h] <;> exact ⟨hL, hA⟩

theorem jsonrpcMessageEpoch_finish {line : List UInt8} (transport : Transport) (sent : Bool)
    (arena : Option Nat) (scope : JsonrpcArenaScope) {w w₁ : World σ}
    (hLedger : World.Ledger w w₁ [] [])
    (hAdds : World.Adds (fun e => e.inner || decide (e = .parse line)) w w₁) :
    World.Ledger w ((jsonrpcCloseOnFailure transport sent w₁).2.scopeEnd arena scope) [] [] ∧
      EpochTrace line (jsonrpcCloseOnFailure transport sent w₁).1 w
        ((jsonrpcCloseOnFailure transport sent w₁).2.scopeEnd arena scope) := by
  rw [jsonrpcCloseOnFailure_eq]
  refine ⟨hLedger.trans ?_, (EpochTrace.close hAdds _).then_tidy (World.scopeEnd_adds _ _ _)⟩
  split_ifs
  · exact (World.Ledger.emit _ _ .close rfl rfl rfl).trans (World.scopeEnd_ledger _ _ _ _)
  · exact World.scopeEnd_ledger _ _ _ _

theorem jsonrpcMessageEpoch_spec {lib : JsonLib} {conn : JsonrpcConn σ} {line : List UInt8}
    {w w' : World σ} {stop : Bool} (hEpoch : jsonrpcMessageEpoch lib conn line w = (stop, w')) :
    World.Ledger w w' [] [] ∧ EpochTrace line stop w w' := by
  suffices World.Ledger w (jsonrpcMessageEpoch lib conn line w).2 [] [] ∧
      EpochTrace line (jsonrpcMessageEpoch lib conn line w).1 w
        (jsonrpcMessageEpoch lib conn line w).2 by
    rwa [hEpoch] at this
  unfold jsonrpcMessageEpoch
  rcases hBegin : w.scopeBegin conn.arena with ⟨scope, w₀⟩
  have hL₀ : World.Ledger w w₀ [] [] := by
    rw [show w₀ = (w.scopeBegin conn.arena).2 by rw [hBegin]]
    exact .of_eq [] rfl rfl
  have hA₀ : World.Adds (fun e => e.inner || decide (e = .parse line)) w w₀ := by
    rw [show w₀ = (w.scopeBegin conn.arena).2 by rw [hBegin]]
    exact .of_eq rfl
  have hA₁ : World.Adds (fun e => e.inner || decide (e = .parse line)) w w₀.alloc.2 :=
    hA₀.trans (World.Inner.alloc w₀ []).adds.inner_parse
  have hL₁ := hL₀.trans (World.Inner.alloc w₀ []).toLedger
  dsimp only
  rcases hAlloc : w₀.alloc with ⟨_ | _, w₁⟩ <;> obtain rfl := World.eq_alloc_snd hAlloc <;> dsimp only
  · have hSend := jsonrpcConnSendError_inner lib (some conn) none jsonrpcErrInternal none w₀.alloc.2 []
    generalize jsonrpcConnSendError lib (some conn) none jsonrpcErrInternal none w₀.alloc.2 = r at hSend ⊢
    exact jsonrpcMessageEpoch_finish _ _ _ _ (hL₁.trans hSend.toLedger) (hA₁.trans hSend.adds.inner_parse)
  obtain ⟨hLp, hAp⟩ := jsonParseString_spec lib line w₀.alloc.2
  generalize jsonParseString lib line w₀.alloc.2 = parsed at hLp hAp ⊢
  obtain ⟨_ | request, w₂⟩ := parsed <;> dsimp only at hLp hAp ⊢
  · have hSend := jsonrpcConnSendError_inner lib (some conn) none jsonrpcErrParse none w₂ []
    generalize jsonrpcConnSendError lib (some conn) none jsonrpcErrParse none w₂ = r at hSend ⊢
    exact jsonrpcMessageEpoch_finish _ _ _ _ ((hL₁.trans hLp).trans hSend.toLedger)
      ((hA₁.trans hAp).trans hSend.adds.inner_parse)
  have hProc := jsonrpcProcessValue_inner conn.callbacks (some request) w₂
  generalize jsonrpcProcessValue conn.callbacks (some request) w₂ = processed at hProc ⊢
  obtain ⟨_ | response, w₃⟩ := processed <;> dsimp only at hProc ⊢
  · have hDone := (EpochTrace.close ((hA₁.trans hAp).trans hProc.adds.inner_parse) false).then_tidy
      ((World.Adds.emit w₃ (.release []) rfl).trans (World.scopeEnd_adds conn.arena scope _))
    exact ⟨((hL₁.trans hLp).trans hProc.toLedger).trans ((World.Inner.free w₃ ⟨request, []⟩ []).toLedger.trans
      (World.scopeEnd_ledger _ _ _ _)), hDone⟩
  have hSend := (jsonrpcSendValue_inner lib conn.transport response w₃ []).frame response.handles
  generalize jsonrpcSendValue lib conn.transport response w₃ = r at hSend ⊢
  obtain ⟨sent, w₄⟩ := r
  simp only [heldHandles_some, List.nil_append] at hProc hSend
  have hL₄ : World.Ledger w w₄ [] response.handles := (hL₁.trans hLp).trans (hProc.trans hSend).toLedger
  have hA₄ := (hA₁.trans hAp).trans (hProc.trans hSend).adds.inner_parse
  dsimp only
  rw [jsonrpcCloseOnFailure_eq]
  dsimp only
  generalize (!sent && conn.transport.close) = stop
  refine ⟨(hL₄.trans (World.Ledger.closeIf stop w₄ _)).trans ?_, (EpochTrace.close hA₄ stop).then_tidy ?_⟩
  · generalize (if stop = true then w₄.emit .close else w₄) = w₅
    have hFree : World.Ledger w₅ (jsonValueFree response w₅) response.handles [] := by
      simpa using World.Ledger.free w₅ response []
    exact (hFree.trans (World.Ledger.free _ ⟨request, []⟩ [])).trans (World.scopeEnd_ledger _ _ _ _)
  · exact ((World.Adds.emit _ (.release response.handles) rfl).trans
      (World.Adds.emit _ (.release []) rfl)).trans (World.scopeEnd_adds _ _ _)

/-- Events a transport or a handler sees: handler calls, `send_raw` and `close`. -/
def Event.observable : Event → Bool
  | .request .. | .notification _ _ | .sendRaw _ | .close => true
  | _ => false

/-- After the first `close` of a stretch of trace comes nothing a transport or a handler sees. -/
def CloseLast : List Event → Prop
  | [] => True
  | e :: rest => if e = .close then ∀ e' ∈ rest, e'.observable = false else CloseLast rest

theorem closeLast_append {δ₁ δ₂ : List Event} (h₁ : Event.close ∉ δ₁) (h₂ : CloseLast δ₂) :
    CloseLast (δ₁ ++ δ₂) := by
  induction δ₁ with
  | nil => exact h₂
  | cons e δ₁ ih =>
    simp only [List.mem_cons, not_or] at h₁
    simp only [List.cons_append, CloseLast, if_neg (Ne.symm h₁.1)]
    exact ih h₁.2

theorem closeLast_of_not_mem {δ : List Event} (h : Event.close ∉ δ) : CloseLast δ := by
  simpa using closeLast_append h (show CloseLast [] by simp [CloseLast])

theorem closeLast_close {δ₁ δ₂ : List Event} (h₁ : Event.close ∉ δ₁)
    (h₂ : ∀ e ∈ δ₂, e.observable = false) : CloseLast (δ₁ ++ Event.close :: δ₂) :=
  closeLast_append h₁ (by simpa [CloseLast] using h₂)

theorem EpochTrace.closeLast {line : List UInt8} {stop : Bool} {w w' : World σ}
    (h : EpochTrace line stop w w') :
    ∃ δ, w'.trace = w.trace ++ δ ∧ CloseLast δ ∧ (stop = false → Event.close ∉ δ) := by
  obtain ⟨δ₁, δ₂, hδ, hp₁, hp₂⟩ := h
  have hNo₁ : Event.close ∉ δ₁ := fun hc => by rcases hp₁ _ hc with h | h <;> cases h
  have hQuiet : ∀ e ∈ δ₂, e.observable = false := fun e he => by
    have hTidy := hp₂ e he
    cases e <;> first | rfl | cases hTidy
  have hNo₂ : Event.close ∉ δ₂ := fun hc => by cases hQuiet _ hc
  cases stop
  · exact ⟨δ₁ ++ δ₂, by simpa using hδ, closeLast_of_not_mem (by simp [hNo₁, hNo₂]),
      fun _ => by simp [hNo₁, hNo₂]⟩
  · exact ⟨δ₁ ++ .close :: δ₂, by simpa using hδ, closeLast_close hNo₁ hQuiet, by simp⟩

theorem jsonrpcRequestTooLarge_spec (lib : JsonLib) (conn : JsonrpcConn σ) (w : World σ) :
    World.Ledger w (jsonrpcRequestTooLarge lib conn w) [] [] ∧
      ∃ δ, (jsonrpcRequestTooLarge lib conn w).trace = w.trace ++ δ ∧ CloseLast δ := by
  have hSend := jsonrpcConnSendError_inner lib (some conn) none jsonrpcErrInvalidRequest
    (some "Request too large") w []
  unfold jsonrpcRequestTooLarge
  generalize jsonrpcConnSendError lib (some conn) none jsonrpcErrInvalidRequest
    (some "Request too large") w = r at hSend ⊢
  obtain ⟨sent, w₁⟩ := r
  dsimp only at hSend
  obtain ⟨δ, hδ, hp⟩ := hSend.adds
  have hNo : Event.close ∉ δ := fun hc => by simpa [Event.inner] using hp _ hc
  have hClose : World.Ledger w (w₁.emit .close) [] [] ∧
      ∃ δ, (w₁.emit .close).trace = w.trace ++ δ ∧ CloseLast δ :=
    ⟨hSend.toLedger.trans (.emit _ _ .close rfl rfl rfl), δ ++ [.close], by simp [hδ],
      closeLast_close hNo (by simp)⟩
  dsimp only
  split_ifs
  · exact hClose
  · exact hClose
  · exact ⟨hSend.toLedger, δ, hδ, closeLast_of_not_mem hNo⟩

theorem jsonrpcFeedLoop_spec (lib : JsonLib) (fuel : Nat) :
    ∀ (conn : JsonrpcConn σ) (w : World σ),
      World.Ledger w (jsonrpcFeedLoop lib fuel conn w).2 [] [] ∧
        (∃ δ, (jsonrpcFeedLoop lib fuel conn w).2.trace = w.trace ++ δ ∧ CloseLast δ) ∧
        (jsonrpcFeedLoop lib fuel conn w).1 =
          { conn with inbound := (jsonrpcFeedLoop lib fuel conn w).1.inbound } := by
  induction fuel with
  | zero => intro conn w; exact ⟨.of_eq [] rfl rfl, ⟨[], (List.append_nil _).symm, trivial⟩, rfl⟩
  | succ fuel ih =>
    intro conn w
    simp only [jsonrpcFeedLoop]
    split
    · exact ⟨.of_eq [] rfl rfl, ⟨[], (List.append_nil _).symm, trivial⟩, rfl⟩
    · split_ifs
      · exact ih _ w
      · obtain ⟨hL, hT⟩ := jsonrpcRequestTooLarge_spec lib conn w
        exact ⟨hL, hT, rfl⟩
      · split
        next w₁ hEpoch =>
          obtain ⟨hL, hE⟩ := jsonrpcMessageEpoch_spec hEpoch
          obtain ⟨δ, hδ, hLast, -⟩ := hE.closeLast
          exact ⟨hL, ⟨δ, hδ, hLast⟩, rfl⟩
        next w₁ hEpoch =>
          obtain ⟨hL, hE⟩ := jsonrpcMessageEpoch_spec hEpoch
          obtain ⟨δ, hδ, -, hNoClose⟩ := hE.closeLast
          obtain ⟨hL', ⟨δ', hδ', hLast'⟩, hConn⟩ := ih _ w₁
          exact ⟨hL.trans hL', ⟨δ ++ δ', by simp [hδ', hδ], closeLast_append (hNoClose rfl) hLast'⟩,
            hConn⟩

theorem jsonrpcConnFeed_spec (lib : JsonLib) (conn : JsonrpcConn σ) (data : List UInt8)
    (w : World σ) :
    World.Ledger w (jsonrpcConnFeed lib conn data w).2 [] [] ∧
      (∃ δ, (jsonrpcConnFeed lib conn data w).2.trace = w.trace ++ δ ∧ CloseLast δ) ∧
      (jsonrpcConnFeed lib conn data w).1.closed = conn.closed := by
  unfold jsonrpcConnFeed
  split_ifs
  · exact ⟨.of_eq [] rfl rfl, ⟨[], by simp, trivial⟩, rfl⟩
  · generalize rpcBufferAppend conn.inbound conn.heap data = r
    obtain ⟨accepted, inbound, heap⟩ := r
    dsimp only
    split_ifs
    · obtain ⟨hL, hT⟩ := jsonrpcRequestTooLarge_spec lib
        { conn with inbound, heap, appends := conn.appends ++ [(data, accepted)] } w
      exact ⟨hL, hT, rfl⟩
    · obtain ⟨hL, hT, hConn⟩ := jsonrpcFeedLoop_spec lib (inbound.len + 1)
        { conn with inbound, heap, appends := conn.appends ++ [(data, accepted)] } w
      exact ⟨hL, hT, by rw [hConn]⟩

/-- A feed that calls `close` makes it its last visible act and leaves `closed` as it was. -/
theorem jsonrpcConnFeed_close_is_last (lib : JsonLib) (conn : JsonrpcConn σ) (data : List UInt8)
    (w : World σ) :
    (∃ δ, (jsonrpcConnFeed lib conn data w).2.trace = w.trace ++ δ ∧ CloseLast δ) ∧
      (jsonrpcConnFeed lib conn data w).1.closed = conn.closed ∧
      (jsonrpcConnFree conn w).1.closed = true ∧
      (conn.closed = true → jsonrpcConnFeed lib conn data w = (conn, w)) := by
  obtain ⟨-, hLast, hClosed⟩ := jsonrpcConnFeed_spec lib conn data w
  exact ⟨hLast, hClosed, rfl, fun h => by simp [jsonrpcConnFeed, h]⟩

/-- After a feed that closed, the next feed of the same line sends its Parse error. -/
theorem feedChunks_sends_after_close :
    (feedChunks ⟨fun _ => none, fun _ => [49]⟩ [[120, 10], [120, 10]]
      (jsonrpcConnNew ⟨true, true⟩ (⟨none, none⟩ : Callbacks Unit) ⟨[], 0, []⟩ none,
        ⟨(), [false, false, true], 0, none, []⟩)).2.trace =
      [.parse [120], .close, .parse [120], .sendRaw [49, 10], .release []] := by
  decide

/-- A request whose error response cannot be built gets no response, no Internal error, no close. -/
theorem jsonrpcConnFeed_drops_request :
    (jsonrpcConnFeed
        ⟨fun _ => some (.object [("jsonrpc", .string "2.0"), ("method", .string "ping"),
          ("id", .number ⟨1, 0⟩)]), fun _ => []⟩
        (jsonrpcConnNew ⟨true, true⟩ (⟨none, none⟩ : Callbacks Unit) ⟨[], 0, []⟩ none)
        ("\x7b\"jsonrpc\":\"2.0\",\"method\":\"ping\",\"id\":1\x7d".toList.map (·.toNat.toUInt8) ++ [10])
        ⟨(), [false, false, true], 0, none, []⟩).2.trace =
      [.parse ("\x7b\"jsonrpc\":\"2.0\",\"method\":\"ping\",\"id\":1\x7d".toList.map (·.toNat.toUInt8)),
        .release []] := by
  decide

/-- Each result `on_request` set is taken at once, and each taken result is released once. -/
def ConsumedOnce (δ : List Event) : Prop :=
  (acquired δ).Nodup ∧ (released δ).Perm (acquired δ) ∧ requestsTaken δ = true

theorem World.Ledger.consumedOnce {w w' : World σ} (h : World.Ledger w w' [] []) :
    ∃ δ, w'.trace = w.trace ++ δ ∧ ConsumedOnce δ := by
  obtain ⟨-, δ, hδ, hacq, hperm, hreq⟩ := h
  exact ⟨δ, hδ, hacq ▸ List.nodup_range' _ _, by simpa using hperm, hreq⟩

/-- Every feed and `send_result` takes each handler result at once and releases it exactly once. -/
theorem handler_results_consumed_once (lib : JsonLib) :
    (∀ (conn : JsonrpcConn σ) (data : List UInt8) (w : World σ),
      ∃ δ, (jsonrpcConnFeed lib conn data w).2.trace = w.trace ++ δ ∧ ConsumedOnce δ) ∧
    (∀ (conn : Option (JsonrpcConn σ)) (id result : Option JsonValue) (w : World σ),
      ∃ δ, (jsonrpcConnSendResult lib conn id result w).2.trace = w.trace ++ δ ∧ ConsumedOnce δ ∧
        (result.isSome → w.handles ∈ acquired δ)) := by
  refine ⟨fun conn data w => (jsonrpcConnFeed_spec lib conn data w).1.consumedOnce,
    fun conn id result w => ?_⟩
  obtain ⟨δ, hδ, hOnce⟩ := (jsonrpcConnSendResult_inner lib conn id result w).toLedger.consumedOnce
  refine ⟨δ, hδ, hOnce, fun hSome => ?_⟩
  obtain ⟨v, rfl⟩ := Option.isSome_iff_exists.mp hSome
  have hAfter := (jsonrpcConnSendResult_inner_taken lib conn id (some v) w).handles_le
  obtain ⟨-, δ', hδ', hacq, -⟩ := (jsonrpcConnSendResult_inner lib conn id (some v) w).toLedger
  obtain rfl : δ' = δ := List.append_cancel_left (hδ'.symm.trans hδ)
  rw [hacq, List.mem_range'_1]
  simp only [World.take, World.emit_handles] at hAfter
  omega

end

end JsonRpc
