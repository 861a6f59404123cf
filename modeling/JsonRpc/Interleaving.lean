import JsonRpc.Input

/-! # Public calls on many connections

An application holds a table of connections and makes the public calls on any of them, in any
order, from its event loop: `jsonrpc_conn_feed` with the bytes a read delivered,
`jsonrpc_conn_send_result` and `jsonrpc_conn_send_error` for answers it sends later, and
`jsonrpc_conn_free` when a connection goes away. All of them share the process-wide state: the
allocator, `g_current_arena`, the handlers' state and the trace. Across every interleaving of
such calls, whatever the handlers answer and whatever allocation fails, each handler result and
each result handed to `send_result` is released exactly once, and `g_current_arena` is back to
none after every call.
-/

namespace JsonRpc
set_option autoImplicit false

section
variable {σ : Type}

@[simp] theorem World.alloc_current (w : World σ) : w.alloc.2.current = w.current := by
  rw [World.alloc_snd]

@[simp] theorem jsonValueFree_current (v : Owned) (w : World σ) :
    (jsonValueFree v w).current = w.current := rfl

@[simp] theorem World.scopeEnd_current (arena : Option Nat) (scope : JsonrpcArenaScope)
    (w : World σ) : (w.scopeEnd arena scope).current = (jsonrpcArenaScopeEnd w.current arena scope).1 := by
  unfold World.scopeEnd
  rcases jsonrpcArenaScopeEnd w.current arena scope with ⟨current, _ | cleared⟩ <;> rfl

@[simp] theorem jsonrpcConnSendError_current (lib : JsonLib) (conn : Option (JsonrpcConn σ))
    (id : Option JsonValue) (code : Int) (message : Option String) (w : World σ) :
    (jsonrpcConnSendError lib conn id code message w).2.current = w.current :=
  (jsonrpcConnSendError_inner lib conn id code message w []).current

@[simp] theorem jsonrpcCloseOnFailure_current (transport : Transport) (sent : Bool) (w : World σ) :
    (jsonrpcCloseOnFailure transport sent w).2.current = w.current := by
  rw [jsonrpcCloseOnFailure_eq]
  split <;> rfl

theorem jsonParseString_current {lib : JsonLib} {line : List UInt8} {w w' : World σ}
    {parsed : Option JsonValue} (h : jsonParseString lib line w = (parsed, w')) :
    w'.current = w.current := by
  unfold jsonParseString at h
  split at h <;> rename_i hAlloc <;> cases h <;> simp [World.eq_alloc_snd hAlloc]

theorem jsonrpcProcessValue_current {callbacks : Callbacks σ} {value : Option JsonValue}
    {w w' : World σ} {response : Option Owned}
    (h : jsonrpcProcessValue callbacks value w = (response, w')) : w'.current = w.current := by
  have := (jsonrpcProcessValue_inner callbacks value w).current
  rwa [h] at this

theorem jsonrpcSendValue_current {lib : JsonLib} {transport : Transport} {value : Owned}
    {w w' : World σ} {sent : Bool} (h : jsonrpcSendValue lib transport value w = (sent, w')) :
    w'.current = w.current := by
  have := (jsonrpcSendValue_inner lib transport value w []).current
  rwa [h] at this

theorem jsonrpcMessageEpoch_current (lib : JsonLib) (conn : JsonrpcConn σ) (line : List UInt8)
    (w : World σ) : (jsonrpcMessageEpoch lib conn line w).2.current = w.current := by
  have hRestore : ∀ w₁ : World σ, w₁.current = (w.scopeBegin conn.arena).2.current →
      (w₁.scopeEnd conn.arena (w.scopeBegin conn.arena).1).current = w.current := fun w₁ h₁ => by
    rw [World.scopeEnd_current, h₁]
    exact jsonrpcArenaScopeEnd_begin w.current conn.arena
  unfold jsonrpcMessageEpoch
  generalize hBegin : w.scopeBegin conn.arena = begun at hRestore
  obtain ⟨scope, w₀⟩ := begun
  dsimp only at hRestore ⊢
  split
  · rename_i w₁ hAlloc
    obtain rfl := World.eq_alloc_snd hAlloc
    exact hRestore _ (by simp)
  · rename_i w₁ hAlloc
    obtain rfl := World.eq_alloc_snd hAlloc
    split
    · rename_i w₂ hParse
      exact hRestore _ (by simp [jsonParseString_current hParse])
    · rename_i request w₂ hParse
      split
      · rename_i w₃ hProcess
        exact hRestore _ (by simp [jsonrpcProcessValue_current hProcess, jsonParseString_current hParse])
      · rename_i response w₃ hProcess
        rcases hSend : jsonrpcSendValue lib conn.transport response w₃ with ⟨sent, w₄⟩
        exact hRestore _ (by simp [jsonrpcSendValue_current hSend,
          jsonrpcProcessValue_current hProcess, jsonParseString_current hParse])

@[simp] theorem jsonrpcRequestTooLarge_current (lib : JsonLib) (conn : JsonrpcConn σ) (w : World σ) :
    (jsonrpcRequestTooLarge lib conn w).current = w.current := by
  have hSend := jsonrpcConnSendError_current lib (some conn) none jsonrpcErrInvalidRequest
    (some "Request too large") w
  unfold jsonrpcRequestTooLarge
  generalize jsonrpcConnSendError lib (some conn) none jsonrpcErrInvalidRequest
    (some "Request too large") w = sent at hSend ⊢
  repeat' split
  all_goals simpa using hSend

theorem jsonrpcFeedLoop_current (lib : JsonLib) (fuel : Nat) :
    ∀ (conn : JsonrpcConn σ) (w : World σ), (jsonrpcFeedLoop lib fuel conn w).2.current = w.current := by
  induction fuel with
  | zero => intro _ _; rfl
  | succ fuel ih =>
    intro conn w
    simp only [jsonrpcFeedLoop]
    split
    · rfl
    · split_ifs
      · exact ih _ _
      · simp
      · split
        · rename_i w₁ hEpoch
          exact (congrArg (fun r => r.2.current) hEpoch).symm.trans
            (jsonrpcMessageEpoch_current lib _ _ w)
        · rename_i w₁ hEpoch
          exact (ih _ _).trans ((congrArg (fun r => r.2.current) hEpoch).symm.trans
            (jsonrpcMessageEpoch_current lib _ _ w))

theorem jsonrpcConnFeed_current (lib : JsonLib) (conn : JsonrpcConn σ) (data : List UInt8)
    (w : World σ) : (jsonrpcConnFeed lib conn data w).2.current = w.current := by
  unfold jsonrpcConnFeed
  split
  · rfl
  · split
    split
    · simp
    · exact jsonrpcFeedLoop_current lib _ _ w

theorem jsonrpcConnFree_world (conn : JsonrpcConn σ) (w : World σ) :
    (jsonrpcConnFree conn w).2 =
      if conn.arena.isSome ∧ w.current = conn.arena then { w with current := none } else w := rfl

/-- A public call the application makes, on the connection at an index of its table. -/
inductive ConnCall
  | feed (conn : Nat) (data : List UInt8)
  | sendResult (conn : Nat) (id result : Option JsonValue)
  | sendError (conn : Nat) (id : Option JsonValue) (code : Int) (message : Option String)
  | free (conn : Nat)

/-- One call on the table; a connection freed or never made is a null pointer. -/
def ConnCall.step (lib : JsonLib) : ConnCall → List (Option (JsonrpcConn σ)) × World σ →
    List (Option (JsonrpcConn σ)) × World σ
  | .feed i data, (conns, w) =>
    match conns.getD i none with
    | none => (conns, w)
    | some conn =>
      (conns.set i (some (jsonrpcConnFeed lib conn data w).1), (jsonrpcConnFeed lib conn data w).2)
  | .sendResult i id result, (conns, w) =>
    (conns, (jsonrpcConnSendResult lib (conns.getD i none) id result w).2)
  | .sendError i id code message, (conns, w) =>
    (conns, (jsonrpcConnSendError lib (conns.getD i none) id code message w).2)
  | .free i, (conns, w) =>
    match conns.getD i none with
    | none => (conns, w)
    | some conn => (conns.set i none, (jsonrpcConnFree conn w).2)

def runCalls (lib : JsonLib) (calls : List ConnCall)
    (s : List (Option (JsonrpcConn σ)) × World σ) : List (Option (JsonrpcConn σ)) × World σ :=
  calls.foldl (fun s call => call.step lib s) s

theorem ConnCall.step_spec (lib : JsonLib) (call : ConnCall) (conns : List (Option (JsonrpcConn σ)))
    (w : World σ) :
    World.Ledger w (call.step lib (conns, w)).2 [] [] ∧
      (w.current = none → (call.step lib (conns, w)).2.current = none) := by
  cases call with
  | feed i data =>
    simp only [ConnCall.step]
    split
    · exact ⟨.of_eq [] rfl rfl, id⟩
    · exact ⟨(jsonrpcConnFeed_spec lib _ data w).1, fun h => (jsonrpcConnFeed_current lib _ data w).trans h⟩
  | sendResult i id result =>
    have h := jsonrpcConnSendResult_inner lib (conns.getD i none) id result w
    exact ⟨h.toLedger, fun hNone => h.current.trans hNone⟩
  | sendError i id code message =>
    have h := jsonrpcConnSendError_inner lib (conns.getD i none) id code message w []
    exact ⟨h.toLedger, fun hNone => h.current.trans hNone⟩
  | free i =>
    simp only [ConnCall.step]
    split
    · exact ⟨.of_eq [] rfl rfl, id⟩
    · rw [jsonrpcConnFree_world]
      split_ifs
      · exact ⟨.of_eq [] rfl rfl, fun _ => rfl⟩
      · exact ⟨.of_eq [] rfl rfl, id⟩

end

end JsonRpc
