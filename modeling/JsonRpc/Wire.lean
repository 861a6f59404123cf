import JsonRpc.Interleaving

/-! # What the core puts on the wire

Every `send_raw` the core makes is the one in `jsonrpc_send_value`, on a value built by
`jsonrpc_build_error`, `jsonrpc_build_result` or the batch loop of `jsonrpc_process_value`.
Each builder either returns the whole response or, when an allocation fails on the way, frees
what it built and returns nothing; the batch loop answers a failed append with an error
response. So across every interleaving of public calls, whatever the handlers answer and
whatever allocation fails, each payload is the serialization of a JSON-RPC 2.0 response object
or of a non-empty batch of them. Where the copy of a request's id fails, the response carries
a `null` id instead. When no allocation fails, a message epoch, the per-line step of the
reference framer, sends exactly the Parse error for a line whose C string does not parse and
otherwise the dispatcher's reply.
-/

namespace JsonRpc
set_option autoImplicit false

/-- Every event but a call of `send_raw`. -/
def Event.silent : Event → Bool
  | .sendRaw _ => false
  | _ => true

theorem Event.silent_of_tidy {e : Event} (h : e.tidy = true) : e.silent = true := by
  cases e <;> simp_all [Event.tidy, Event.silent]

/-- A response object as the core builds it: `jsonrpc`, `id`, then one `result` or `error`. -/
def IsResponse (v : JsonValue) : Prop :=
  ∃ id body, v = responseObject id body ∧ ResponseBody body

/-- What the core answers a message with: one response, or a non-empty batch of them. -/
def IsReply (v : JsonValue) : Prop :=
  IsResponse v ∨ ∃ items, v = .array items ∧ items ≠ [] ∧ ∀ x ∈ items, IsResponse x

/-- A `send_raw` payload carrying a reply: its serialization up to the first NUL, then a newline. -/
def WireReply (lib : JsonLib) (payload : List UInt8) : Prop :=
  ∃ v, IsReply v ∧ payload = (lib.serialize v).takeWhile (· ≠ 0) ++ [10]

theorem isResponse_object {id : Option JsonValue} {c : JsonValue}
    (hc : c = jsonrpcCopiedId id ∨ c = .null) {body : String × JsonValue}
    (hBody : ResponseBody body) :
    IsResponse (.object [("jsonrpc", .string "2.0"), ("id", c), body]) := by
  rcases hc with rfl | rfl
  exacts [⟨id, body, rfl, hBody⟩, ⟨none, body, rfl, hBody⟩]

section
variable {σ : Type}

/-- From `w` to `w'` every `send_raw` carries a reply. -/
def World.SendsReplies (lib : JsonLib) (w w' : World σ) : Prop :=
  ∃ δ, w'.trace = w.trace ++ δ ∧ ∀ p, Event.sendRaw p ∈ δ → WireReply lib p

theorem World.SendsReplies.trans {lib : JsonLib} {w₁ w₂ w₃ : World σ}
    (h₁ : World.SendsReplies lib w₁ w₂) (h₂ : World.SendsReplies lib w₂ w₃) :
    World.SendsReplies lib w₁ w₃ := by
  obtain ⟨δ₁, hδ₁, h₁⟩ := h₁
  obtain ⟨δ₂, hδ₂, h₂⟩ := h₂
  refine ⟨δ₁ ++ δ₂, by rw [hδ₂, hδ₁, List.append_assoc], fun p hp => ?_⟩
  rcases List.mem_append.mp hp with hp | hp
  exacts [h₁ p hp, h₂ p hp]

def Event.sentPayload : Event → Option (List UInt8)
  | .sendRaw payload => some payload
  | _ => none

/-- From `w` to `w'` the calls of `send_raw` carry the payloads `ps`, in order. -/
def World.Sends (w w' : World σ) (ps : List (List UInt8)) : Prop :=
  ∃ δ, w'.trace = w.trace ++ δ ∧ δ.filterMap Event.sentPayload = ps

theorem World.Sends.trans {w₁ w₂ w₃ : World σ} {ps qs : List (List UInt8)}
    (h₁ : World.Sends w₁ w₂ ps) (h₂ : World.Sends w₂ w₃ qs) : World.Sends w₁ w₃ (ps ++ qs) := by
  obtain ⟨δ₁, hδ₁, rfl⟩ := h₁
  obtain ⟨δ₂, hδ₂, rfl⟩ := h₂
  exact ⟨δ₁ ++ δ₂, by rw [hδ₂, hδ₁, List.append_assoc], List.filterMap_append _ _ _⟩

theorem World.Sends.emit_sendRaw (w : World σ) (payload : List UInt8) :
    World.Sends w (w.emit (.sendRaw payload)) [payload] :=
  ⟨[_], rfl, rfl⟩

namespace World.Adds

variable {p : Event → Bool} {w₁ w₂ : World σ}

theorem sends (h : World.Adds Event.silent w₁ w₂) : World.Sends w₁ w₂ [] := by
  obtain ⟨δ, hδ, hs⟩ := h
  refine ⟨δ, hδ, List.filterMap_eq_nil_iff.mpr fun e he => ?_⟩
  have := hs e he
  cases e <;> first | rfl | cases this

theorem sendsReplies (h : World.Adds Event.silent w₁ w₂) (lib : JsonLib) :
    World.SendsReplies lib w₁ w₂ := by
  obtain ⟨δ, hδ, hp⟩ := h
  exact ⟨δ, hδ, fun q hq => by simpa [Event.silent] using hp _ hq⟩

theorem then_alloc (h : World.Adds p w₁ w₂) : World.Adds p w₁ w₂.alloc.2 :=
  h.trans (.of_eq (by rw [World.alloc_snd]))

theorem then_free (h : World.Adds Event.silent w₁ w₂) (v : Owned) :
    World.Adds Event.silent w₁ (jsonValueFree v w₂) :=
  h.trans (.emit _ _ rfl)

theorem then_scopeEnd (h : World.Adds Event.silent w₁ w₂) (arena : Option Nat)
    (scope : JsonrpcArenaScope) : World.Adds Event.silent w₁ (w₂.scopeEnd arena scope) :=
  h.trans ((World.scopeEnd_adds arena scope w₂).mono fun _ => Event.silent_of_tidy)

end World.Adds

theorem World.Sends.then_silent {w₁ w₂ w₃ : World σ} {ps : List (List UInt8)}
    (h : World.Sends w₁ w₂ ps) (h' : World.Adds Event.silent w₂ w₃) : World.Sends w₁ w₃ ps := by
  simpa using h.trans h'.sends

/-- A dispatcher call that makes no `send_raw` and returns, if anything, a response object. -/
def BuildsResponse (w : World σ) (r : Option Owned × World σ) : Prop :=
  World.Adds Event.silent w r.2 ∧ ∀ x, r.1 = some x → IsResponse x.value

theorem BuildsResponse.after {w w₁ : World σ} {r : Option Owned × World σ}
    (h : World.Adds Event.silent w w₁) (h' : BuildsResponse w₁ r) : BuildsResponse w r :=
  ⟨h.trans h'.1, h'.2⟩

theorem jsonrpcCopyId_reply {id : Option JsonValue} {w w' : World σ} {r : Option Owned}
    (h : jsonrpcCopyId id w = (r, w')) :
    World.Adds Event.silent w w' ∧
      ∀ c, r = some c → c.value = jsonrpcCopiedId id ∨ c.value = .null := by
  have hInit : ∀ {w₁ : World σ}, World.Adds Event.silent w w₁ →
      jsonValueInitNull w₁ = (r, w') → World.Adds Event.silent w w' ∧
        ∀ c, r = some c → c.value = jsonrpcCopiedId id ∨ c.value = .null := by
    intro w₁ h₁ hNull
    obtain ⟨rfl, hr⟩ := jsonAlloc_eq hNull
    refine ⟨h₁.then_alloc, fun c hc => .inr ?_⟩
    rcases hr with rfl | rfl <;> cases hc
    rfl
  unfold jsonrpcCopyId at h
  split at h
  · exact hInit (.of_eq rfl) h
  · rename_i v
    split at h
    · rename_i hType
      split at h
      · rename_i copy w₁ hCopy
        obtain ⟨rfl, hr⟩ := jsonAlloc_eq hCopy
        obtain ⟨rfl, rfl⟩ := Prod.mk.inj h
        refine ⟨World.Adds.then_alloc (.of_eq rfl), fun c hc => .inl ?_⟩
        rcases hr with hr | hr <;> cases hr
        cases hc
        simp [jsonrpcCopiedId, hType]
      · rename_i w₁ hCopy
        obtain ⟨rfl, -⟩ := jsonAlloc_eq hCopy
        exact hInit (World.Adds.then_alloc (.of_eq rfl)) h
    · exact hInit (.of_eq rfl) h

theorem jsonrpcBuildError_reply (id : Option JsonValue) (code : Int) (message : Option String)
    (w : World σ) : BuildsResponse w (jsonrpcBuildError id code message w) := by
  have h₀ : World.Adds Event.silent w w := .of_eq rfl
  unfold jsonrpcBuildError
  split
  next h => exact ⟨jsonAlloc_none h ▸ h₀.then_alloc, nofun⟩
  next h =>
  obtain ⟨rfl, rfl⟩ := jsonAlloc_some h
  split
  next h => exact ⟨jsonObjectSetValue_none h ▸ h₀.then_alloc.then_alloc.then_free _, nofun⟩
  next h =>
  obtain ⟨rfl, rfl⟩ := jsonObjectSetValue_some h
  split
  next h =>
    exact ⟨(h₀.then_alloc.then_alloc.trans (jsonrpcCopyId_reply h).1).then_free _, nofun⟩
  next h =>
  obtain ⟨h₃, hId⟩ := jsonrpcCopyId_reply h
  replace h₃ := h₀.then_alloc.then_alloc.trans h₃
  split
  next h =>
    exact ⟨jsonObjectSetValue_none h ▸ (h₃.then_alloc.then_free _).then_free _, nofun⟩
  next h =>
  obtain ⟨rfl, rfl⟩ := jsonObjectSetValue_some h
  split
  next h => exact ⟨jsonAlloc_none h ▸ h₃.then_alloc.then_alloc.then_free _, nofun⟩
  next h =>
  obtain ⟨rfl, rfl⟩ := jsonAlloc_some h
  split
  next h =>
    exact ⟨jsonObjectSetValue_none h ▸
      (h₃.then_alloc.then_alloc.then_alloc.then_free _).then_free _, nofun⟩
  next h =>
  obtain ⟨rfl, rfl⟩ := jsonObjectSetValue_some h
  split
  next h =>
    exact ⟨jsonObjectSetValue_none h ▸
      (h₃.then_alloc.then_alloc.then_alloc.then_alloc.then_free _).then_free _, nofun⟩
  next h =>
  obtain ⟨rfl, rfl⟩ := jsonObjectSetValue_some h
  split
  next h =>
    exact ⟨jsonObjectSetValue_none h ▸
      (h₃.then_alloc.then_alloc.then_alloc.then_alloc.then_alloc.then_free _).then_free _,
      nofun⟩
  next h =>
  obtain ⟨rfl, rfl⟩ := jsonObjectSetValue_some h
  refine ⟨h₃.then_alloc.then_alloc.then_alloc.then_alloc.then_alloc, fun r hr => ?_⟩
  cases hr
  simpa [Owned.set, jsonObjectSet, errorBody] using
    isResponse_object (hId _ rfl) (errorBody_responseBody code message)

theorem jsonrpcBuildResult_reply (id : Option JsonValue) (result : Option Owned) (w : World σ) :
    BuildsResponse w (jsonrpcBuildResult id result w) := by
  have h₀ : World.Adds Event.silent w w := .of_eq rfl
  unfold jsonrpcBuildResult
  split
  next => exact ⟨h₀, nofun⟩
  next res =>
  split
  next h => exact ⟨jsonAlloc_none h ▸ h₀.then_alloc.then_free _, nofun⟩
  next h =>
  obtain ⟨rfl, rfl⟩ := jsonAlloc_some h
  split
  next h =>
    exact ⟨jsonObjectSetValue_none h ▸ (h₀.then_alloc.then_alloc.then_free _).then_free _,
      nofun⟩
  next h =>
  obtain ⟨rfl, rfl⟩ := jsonObjectSetValue_some h
  split
  next h =>
    exact ⟨((h₀.then_alloc.then_alloc.trans (jsonrpcCopyId_reply h).1).then_free _).then_free _,
      nofun⟩
  next h =>
  obtain ⟨h₃, hId⟩ := jsonrpcCopyId_reply h
  replace h₃ := h₀.then_alloc.then_alloc.trans h₃
  split
  next h =>
    exact ⟨jsonObjectSetValue_none h ▸ ((h₃.then_alloc.then_free _).then_free _).then_free _,
      nofun⟩
  next h =>
  obtain ⟨rfl, rfl⟩ := jsonObjectSetValue_some h
  split
  next h =>
    exact ⟨jsonObjectSetValue_none h ▸ (h₃.then_alloc.then_alloc.then_free _).then_free _,
      nofun⟩
  next h =>
  obtain ⟨rfl, rfl⟩ := jsonObjectSetValue_some h
  refine ⟨h₃.then_alloc.then_alloc, fun r hr => ?_⟩
  cases hr
  simpa [Owned.set, jsonObjectSet] using
    isResponse_object (hId _ rfl) (show ResponseBody ("result", res.value) from .inl rfl)

theorem World.take_silent (value : Option JsonValue) (w : World σ) :
    World.Adds Event.silent w (World.take value w).2 := by
  cases value
  exacts [.of_eq rfl, .emit _ _ rfl]

theorem World.freeOpt_silent (value : Option Owned) (w : World σ) :
    World.Adds Event.silent w (w.freeOpt value) := by
  cases value
  exacts [.of_eq rfl, .emit _ _ rfl]

theorem jsonrpcHandleRequest_reply
    (handler : σ → String → Option JsonValue → σ × Bool × JsonrpcResponse)
    (id : Option JsonValue) (method : String) (params : Option JsonValue) (w : World σ) :
    BuildsResponse w (jsonrpcHandleRequest handler id method params w) := by
  unfold jsonrpcHandleRequest
  generalize handler w.user method params = outcome
  obtain ⟨user, handled, response⟩ := outcome
  dsimp only
  have hTake : World.Adds Event.silent w (World.take response.result
      ({ w with user }.emit (.request method params response.result.isSome))).2 :=
    (World.Adds.emit { w with user } _ rfl).trans (World.take_silent _ _)
  generalize World.take response.result
    ({ w with user }.emit (.request method params response.result.isSome)) = taken at hTake ⊢
  obtain ⟨result, w₁⟩ := taken
  dsimp only at hTake ⊢
  split_ifs
  · exact .after (hTake.trans (World.freeOpt_silent result w₁)) (jsonrpcBuildError_reply _ _ _ _)
  · exact .after (hTake.trans (World.freeOpt_silent result w₁)) (jsonrpcBuildError_reply _ _ _ _)
  · exact .after hTake (jsonrpcBuildError_reply _ _ _ _)
  · exact .after hTake (jsonrpcBuildResult_reply _ _ _)

theorem jsonrpcProcessObject_reply (callbacks : Callbacks σ) (value : JsonValue) (w : World σ) :
    BuildsResponse w (jsonrpcProcessObject callbacks value w) :=
  jsonrpcProcessObject_cases callbacks value w (BuildsResponse w)
    (fun _ _ _ => jsonrpcBuildError_reply _ _ _ w) ⟨.of_eq rfl, nofun⟩
    (fun _ _ _ => ⟨World.Adds.emit { w with user := _ } _ rfl, nofun⟩)
    (fun _ _ _ _ => jsonrpcHandleRequest_reply _ _ _ _ w)

theorem jsonrpcProcessBatch_reply (callbacks : Callbacks σ) (items : List JsonValue) :
    ∀ (responses : Owned) (xs : List JsonValue) (w : World σ), responses.value = .array xs →
      (∀ x ∈ xs, IsResponse x) →
      World.Adds Event.silent w (jsonrpcProcessBatch callbacks items responses xs.length w).2 ∧
        ∀ r, (jsonrpcProcessBatch callbacks items responses xs.length w).1 = some r →
          IsReply r.value := by
  induction items with
  | nil =>
    intro responses xs w hArray hAll
    simp only [jsonrpcProcessBatch]
    split_ifs with hEmpty
    · exact ⟨World.Adds.then_free (.of_eq rfl) responses, nofun⟩
    · refine ⟨.of_eq rfl, fun r hr => ?_⟩
      cases hr
      exact .inr ⟨xs, hArray, fun hNil => hEmpty (by rw [hNil]; rfl), hAll⟩
  | cons item items ih =>
    intro responses xs w hArray hAll
    have hItem := jsonrpcProcessObject_reply callbacks item w
    simp only [jsonrpcProcessBatch]
    rcases hr : jsonrpcProcessObject callbacks item w with ⟨_ | response, w₁⟩
    · rw [hr] at hItem
      obtain ⟨hRest, hReply⟩ := ih responses xs w₁ hArray hAll
      exact ⟨hItem.1.trans hRest, hReply⟩
    · rw [hr] at hItem
      dsimp only
      rcases hA : w₁.alloc with ⟨_ | _, w₂⟩ <;> obtain rfl := World.eq_alloc_snd hA <;>
        dsimp only
      · obtain ⟨hBuild, hError⟩ := jsonrpcBuildError_reply none jsonrpcErrInternal none
          (jsonValueFree responses (jsonValueFree response w₁.alloc.2))
        exact ⟨(hItem.1.then_alloc.then_free _).then_free _ |>.trans hBuild,
          fun r hr => .inl (hError r hr)⟩
      · have hPush : (responses.push response).value = .array (xs ++ [response.value]) := by
          simp [Owned.push, hArray]
        have hAll' : ∀ x ∈ xs ++ [response.value], IsResponse x := fun x hx =>
          (List.mem_append.mp hx).elim (hAll x) fun hx => by
            rw [List.mem_singleton.mp hx]; exact hItem.2 _ rfl
        obtain ⟨hRest, hReply⟩ := ih (responses.push response) _ w₁.alloc.2 hPush hAll'
        rw [List.length_append, List.length_singleton] at hRest hReply
        exact ⟨hItem.1.then_alloc.trans hRest, hReply⟩

/-- `jsonrpc_process_value` makes no `send_raw`, and answers, if at all, with a reply. -/
theorem jsonrpcProcessValue_reply (callbacks : Callbacks σ) (value : Option JsonValue)
    (w : World σ) :
    World.Adds Event.silent w (jsonrpcProcessValue callbacks value w).2 ∧
      ∀ r, (jsonrpcProcessValue callbacks value w).1 = some r → IsReply r.value := by
  have hResponse : ∀ {r : Option Owned × World σ}, BuildsResponse w r →
      World.Adds Event.silent w r.2 ∧ ∀ x, r.1 = some x → IsReply x.value :=
    fun h => ⟨h.1, fun x hx => .inl (h.2 x hx)⟩
  unfold jsonrpcProcessValue
  split
  · exact hResponse (jsonrpcBuildError_reply _ _ _ w)
  · split_ifs
    · exact hResponse (jsonrpcBuildError_reply _ _ _ w)
    · split
      next h =>
        exact hResponse (.after (jsonAlloc_none h ▸ (World.Adds.of_eq rfl).then_alloc)
          (jsonrpcBuildError_reply _ _ _ _))
      next h =>
        obtain ⟨rfl, rfl⟩ := jsonAlloc_some h
        obtain ⟨hBatch, hReply⟩ :=
          jsonrpcProcessBatch_reply callbacks _ ⟨.array [], []⟩ [] w.alloc.2 rfl nofun
        exact ⟨(World.Adds.of_eq rfl).then_alloc.trans hBatch, hReply⟩
  · exact hResponse (jsonrpcProcessObject_reply _ _ w)

theorem jsonrpcSendValue_trace (lib : JsonLib) (transport : Transport) (value : Owned)
    (w : World σ) :
    (jsonrpcSendValue lib transport value w).2.trace = w.trace ∨
      (jsonrpcSendValue lib transport value w).2.trace =
        w.trace ++ [.sendRaw ((lib.serialize value.value).takeWhile (· ≠ 0) ++ [10])] := by
  unfold jsonrpcSendValue
  split
  · split
    · rename_i h
      exact .inl (by rw [World.eq_alloc_snd h, World.alloc_snd])
    · rename_i h₁
      obtain rfl := World.eq_alloc_snd h₁
      split
      · rename_i h₂
        exact .inl (by rw [World.eq_alloc_snd h₂, World.alloc_snd, World.alloc_snd])
      · rename_i h₂
        obtain rfl := World.eq_alloc_snd h₂
        exact .inr (by rw [World.alloc_snd, World.alloc_snd]; rfl)
  · exact .inl rfl

theorem jsonrpcSendValue_replies (lib : JsonLib) (transport : Transport) {value : Owned}
    (hValue : IsReply value.value) (w : World σ) :
    World.SendsReplies lib w (jsonrpcSendValue lib transport value w).2 := by
  rcases jsonrpcSendValue_trace lib transport value w with h | h
  · exact ⟨[], by rw [h, List.append_nil], nofun⟩
  · exact ⟨_, h, fun p hp => ⟨value.value, hValue, by simpa using hp⟩⟩

theorem jsonrpcConnSendError_replies (lib : JsonLib) (conn : Option (JsonrpcConn σ))
    (id : Option JsonValue) (code : Int) (message : Option String) (w : World σ) :
    World.SendsReplies lib w (jsonrpcConnSendError lib conn id code message w).2 := by
  unfold jsonrpcConnSendError
  split
  · exact (World.Adds.of_eq rfl).sendsReplies lib
  · rename_i conn
    rcases hBegin : w.scopeBegin conn.arena with ⟨scope, w₀⟩
    have h₀ : World.Adds Event.silent w w₀ :=
      .of_eq (by rw [← World.scopeBegin_trace conn.arena w, hBegin])
    dsimp only
    obtain ⟨hBuild, hResponse⟩ := jsonrpcBuildError_reply id code message w₀
    split
    · rename_i w₁ h
      rw [h] at hBuild
      exact ((h₀.trans hBuild).then_scopeEnd _ _).sendsReplies lib
    · rename_i response w₁ h
      rw [h] at hBuild hResponse
      have hSend := jsonrpcSendValue_replies lib conn.transport (.inl (hResponse _ rfl)) w₁
      generalize jsonrpcSendValue lib conn.transport response w₁ = sent at hSend ⊢
      exact (((h₀.trans hBuild).sendsReplies lib).trans hSend).trans
        ((((World.Adds.of_eq rfl).then_free response).then_scopeEnd _ _).sendsReplies lib)

theorem jsonrpcConnSendError_of_faults_nil (lib : JsonLib) (conn : JsonrpcConn σ)
    (id : Option JsonValue) (code : Int) (message : Option String) {w : World σ}
    (hFaults : w.faults = []) (hSend : conn.transport.sendRaw = true) :
    (jsonrpcConnSendError lib (some conn) id code message w).1 = true ∧
      World.Sends w (jsonrpcConnSendError lib (some conn) id code message w).2
        [(lib.serialize (responseObject id (errorBody code message))).takeWhile (· ≠ 0) ++ [10]] := by
  unfold jsonrpcConnSendError
  dsimp only
  rcases hBegin : w.scopeBegin conn.arena with ⟨scope, w₀⟩
  have h₀ : w₀.faults = [] := by rw [← hFaults, ← World.scopeBegin_faults conn.arena w, hBegin]
  have hStart : World.Adds Event.silent w w₀ :=
    .of_eq (by rw [← World.scopeBegin_trace conn.arena w, hBegin])
  dsimp only
  rw [jsonrpcBuildError_of_faults_nil _ _ _ h₀]
  dsimp only
  rw [jsonrpcSendValue_of_faults_nil lib _ h₀ hSend]
  exact ⟨rfl, (hStart.sends.trans (World.Sends.emit_sendRaw _ _)).then_silent
    (((World.Adds.of_eq rfl).then_free _).then_scopeEnd _ _)⟩

theorem jsonrpcConnSendResult_replies (lib : JsonLib) (conn : Option (JsonrpcConn σ))
    (id : Option JsonValue) (result : Option JsonValue) (w : World σ) :
    World.SendsReplies lib w (jsonrpcConnSendResult lib conn id result w).2 := by
  have hTake := World.take_silent result w
  unfold jsonrpcConnSendResult
  generalize World.take result w = taken at hTake ⊢
  obtain ⟨result, w₁⟩ := taken
  dsimp only at hTake ⊢
  split
  · rename_i conn result
    rcases hBegin : w₁.scopeBegin conn.arena with ⟨scope, w₀⟩
    have h₀ : World.Adds Event.silent w w₀ :=
      hTake.trans (.of_eq (by rw [← World.scopeBegin_trace conn.arena w₁, hBegin]))
    dsimp only
    obtain ⟨hBuild, hResponse⟩ := jsonrpcBuildResult_reply id (some result) w₀
    split
    · rename_i w₂ h
      rw [h] at hBuild
      exact ((h₀.trans hBuild).then_scopeEnd _ _).sendsReplies lib
    · rename_i response w₂ h
      rw [h] at hBuild hResponse
      have hSend := jsonrpcSendValue_replies lib conn.transport (.inl (hResponse _ rfl)) w₂
      generalize jsonrpcSendValue lib conn.transport response w₂ = sent at hSend ⊢
      exact (((h₀.trans hBuild).sendsReplies lib).trans hSend).trans
        ((((World.Adds.of_eq rfl).then_free response).then_scopeEnd _ _).sendsReplies lib)
  · exact (hTake.trans (World.freeOpt_silent _ _)).sendsReplies lib

theorem jsonrpcCloseOnFailure_silent (transport : Transport) (sent : Bool) (w : World σ) :
    World.Adds Event.silent w (jsonrpcCloseOnFailure transport sent w).2 := by
  rw [jsonrpcCloseOnFailure_eq]
  split_ifs
  exacts [.emit w .close rfl, .of_eq rfl]

theorem jsonParseString_silent (lib : JsonLib) (line : List UInt8) (w : World σ) :
    World.Adds Event.silent w (jsonParseString lib line w).2 := by
  unfold jsonParseString
  split <;> rename_i h <;> rw [World.eq_alloc_snd h] <;>
    exact (World.Adds.emit w (.parse line) rfl).then_alloc

theorem jsonrpcMessageEpoch_replies {lib : JsonLib} {conn : JsonrpcConn σ} {line : List UInt8}
    {w w' : World σ} {stop : Bool} (hEpoch : jsonrpcMessageEpoch lib conn line w = (stop, w')) :
    World.SendsReplies lib w w' := by
  suffices World.SendsReplies lib w (jsonrpcMessageEpoch lib conn line w).2 by rwa [hEpoch] at this
  have hEnd : ∀ {w₁ w₂ : World σ}, World.SendsReplies lib w w₁ →
      World.Adds Event.silent w₁ w₂ → ∀ scope,
        World.SendsReplies lib w (w₂.scopeEnd conn.arena scope) :=
    fun h₁ h₂ scope => h₁.trans ((h₂.then_scopeEnd _ scope).sendsReplies lib)
  have hError : ∀ {w₁ : World σ} (code : Int), World.Adds Event.silent w w₁ → ∀ scope,
      World.SendsReplies lib w
        ((jsonrpcCloseOnFailure conn.transport
          (jsonrpcConnSendError lib (some conn) none code none w₁).1
          (jsonrpcConnSendError lib (some conn) none code none w₁).2).2.scopeEnd
            conn.arena scope) :=
    fun code h₁ scope => hEnd ((h₁.sendsReplies lib).trans
      (jsonrpcConnSendError_replies lib (some conn) none code none _))
      (jsonrpcCloseOnFailure_silent _ _ _) scope
  unfold jsonrpcMessageEpoch
  rcases hBegin : w.scopeBegin conn.arena with ⟨scope, w₀⟩
  have h₀ : World.Adds Event.silent w w₀ :=
    .of_eq (by rw [← World.scopeBegin_trace conn.arena w, hBegin])
  dsimp only
  rcases hA : w₀.alloc with ⟨_ | _, w₁⟩ <;> obtain rfl := World.eq_alloc_snd hA <;>
    dsimp only
  · exact hError _ h₀.then_alloc scope
  have hParse := h₀.then_alloc.trans (jsonParseString_silent lib line w₀.alloc.2)
  generalize jsonParseString lib line w₀.alloc.2 = parsed at hParse ⊢
  obtain ⟨_ | request, w₂⟩ := parsed <;> dsimp only at hParse ⊢
  · exact hError _ hParse scope
  obtain ⟨hProc, hReply⟩ := jsonrpcProcessValue_reply conn.callbacks (some request) w₂
  generalize jsonrpcProcessValue conn.callbacks (some request) w₂ = processed at hProc hReply ⊢
  obtain ⟨_ | response, w₃⟩ := processed <;> dsimp only at hProc hReply ⊢
  · exact hEnd ((hParse.trans hProc).sendsReplies lib) ((World.Adds.of_eq rfl).then_free _) scope
  have hSend := jsonrpcSendValue_replies lib conn.transport (hReply _ rfl) w₃
  generalize jsonrpcSendValue lib conn.transport response w₃ = sent at hSend ⊢
  obtain ⟨sent, w₄⟩ := sent
  exact hEnd (((hParse.trans hProc).sendsReplies lib).trans hSend)
    (((jsonrpcCloseOnFailure_silent _ _ _).then_free _).then_free _) scope

theorem jsonrpcRequestTooLarge_replies (lib : JsonLib) (conn : JsonrpcConn σ) (w : World σ) :
    World.SendsReplies lib w (jsonrpcRequestTooLarge lib conn w) := by
  have hSend := jsonrpcConnSendError_replies lib (some conn) none jsonrpcErrInvalidRequest
    (some "Request too large") w
  unfold jsonrpcRequestTooLarge
  generalize jsonrpcConnSendError lib (some conn) none jsonrpcErrInvalidRequest
    (some "Request too large") w = r at hSend ⊢
  obtain ⟨sent, w₁⟩ := r
  dsimp only
  have hClose : World.SendsReplies lib w (w₁.emit .close) :=
    hSend.trans ((World.Adds.emit w₁ .close rfl).sendsReplies lib)
  split_ifs
  exacts [hClose, hClose, hSend]

theorem jsonrpcFeedLoop_replies (lib : JsonLib) (fuel : Nat) :
    ∀ (conn : JsonrpcConn σ) (w : World σ),
      World.SendsReplies lib w (jsonrpcFeedLoop lib fuel conn w).2 := by
  induction fuel with
  | zero => intro conn w; exact (World.Adds.of_eq rfl).sendsReplies lib
  | succ fuel ih =>
    intro conn w
    simp only [jsonrpcFeedLoop]
    split
    · exact (World.Adds.of_eq rfl).sendsReplies lib
    · split_ifs
      · exact ih _ w
      · exact jsonrpcRequestTooLarge_replies lib conn w
      · split
        · rename_i w₁ hEpoch
          exact jsonrpcMessageEpoch_replies hEpoch
        · rename_i w₁ hEpoch
          exact (jsonrpcMessageEpoch_replies hEpoch).trans (ih _ w₁)

theorem jsonrpcConnFeed_replies (lib : JsonLib) (conn : JsonrpcConn σ) (data : List UInt8)
    (w : World σ) : World.SendsReplies lib w (jsonrpcConnFeed lib conn data w).2 := by
  unfold jsonrpcConnFeed
  split
  · exact (World.Adds.of_eq rfl).sendsReplies lib
  · split
    split
    · exact jsonrpcRequestTooLarge_replies lib _ w
    · exact jsonrpcFeedLoop_replies lib _ _ w

theorem ConnCall.step_replies (lib : JsonLib) (call : ConnCall)
    (conns : List (Option (JsonrpcConn σ))) (w : World σ) :
    World.SendsReplies lib w (call.step lib (conns, w)).2 := by
  cases call with
  | feed i data =>
    simp only [ConnCall.step]
    split
    · exact (World.Adds.of_eq rfl).sendsReplies lib
    · exact jsonrpcConnFeed_replies lib _ data w
  | sendResult i id result => exact jsonrpcConnSendResult_replies lib _ id result w
  | sendError i id code message => exact jsonrpcConnSendError_replies lib _ id code message w
  | free i =>
    simp only [ConnCall.step]
    split
    · exact (World.Adds.of_eq rfl).sendsReplies lib
    · rw [jsonrpcConnFree_world]
      split_ifs <;> exact (World.Adds.of_eq rfl).sendsReplies lib

/-- Across every interleaving of public calls, every `send_raw` payload carries a reply. -/
theorem runCalls_sends_only_replies (lib : JsonLib) (calls : List ConnCall)
    (conns : List (Option (JsonrpcConn σ))) (w : World σ) :
    ∃ δ, (runCalls lib calls (conns, w)).2.trace = w.trace ++ δ ∧
      ∀ p, Event.sendRaw p ∈ δ → WireReply lib p := by
  induction calls generalizing conns w with
  | nil => exact (World.Adds.of_eq rfl).sendsReplies lib
  | cons call calls ih =>
    exact (call.step_replies lib conns w).trans (ih _ _)

theorem jsonrpcCloseOnFailure_sent (transport : Transport) (w : World σ) :
    jsonrpcCloseOnFailure transport true w = (false, w) := by
  simp [jsonrpcCloseOnFailure]

/-- With no fault and `send_raw` set, an epoch sends the Parse error or the dispatcher's reply. -/
theorem jsonrpcMessageEpoch_of_faults_nil (lib : JsonLib) (conn : JsonrpcConn σ)
    (line : List UInt8) {w : World σ} (hFaults : w.faults = [])
    (hSend : conn.transport.sendRaw = true) :
    (jsonrpcMessageEpoch lib conn line w).1 = false ∧
      World.Sends (w.emit (.parse line)) (jsonrpcMessageEpoch lib conn line w).2
        (match lib.parse (line.takeWhile (· ≠ 0)) with
          | none => [(lib.serialize (responseObject none (errorBody jsonrpcErrParse none))).takeWhile
              (· ≠ 0) ++ [10]]
          | some request =>
            ((jsonrpcProcessValue conn.callbacks (some request)
                ((w.scopeBegin conn.arena).2.emit (.parse line))).1.map
              fun response => (lib.serialize response.value).takeWhile (· ≠ 0) ++ [10]).toList) := by
  unfold jsonrpcMessageEpoch
  rcases hBegin : w.scopeBegin conn.arena with ⟨scope, w₀⟩
  have h₀ : w₀.faults = [] := by rw [← hFaults, ← World.scopeBegin_faults conn.arena w, hBegin]
  have hStart : World.Sends (w.emit (.parse line)) (w₀.emit (.parse line)) [] :=
    (World.Adds.of_eq (by simp [← World.scopeBegin_trace conn.arena w, hBegin])).sends
  dsimp only
  rw [World.alloc_of_faults_nil h₀]
  dsimp only
  rw [jsonParseString_of_faults_nil lib line h₀]
  replace h₀ : (w₀.emit (.parse line)).faults = [] := h₀
  rcases lib.parse (line.takeWhile (· ≠ 0)) with _ | request <;> dsimp only
  · obtain ⟨hSent, hError⟩ :=
      jsonrpcConnSendError_of_faults_nil lib conn none jsonrpcErrParse none h₀ hSend
    generalize jsonrpcConnSendError lib (some conn) none jsonrpcErrParse none
      (w₀.emit (.parse line)) = sent at hSent hError ⊢
    obtain ⟨_, w₁⟩ := sent
    subst hSent
    rw [jsonrpcCloseOnFailure_sent]
    exact ⟨rfl, (hStart.trans hError).then_silent ((World.Adds.of_eq rfl).then_scopeEnd _ _)⟩
  have hProc := (jsonrpcProcessValue_reply conn.callbacks (some request) (w₀.emit (.parse line))).1
  have hF := jsonrpcProcessValue_faults conn.callbacks (some request) h₀
  generalize jsonrpcProcessValue conn.callbacks (some request) (w₀.emit (.parse line)) = processed
    at hProc hF ⊢
  obtain ⟨_ | response, w₂⟩ := processed <;> dsimp only at hProc hF ⊢
  · exact ⟨rfl, (hStart.trans hProc.sends).then_silent
      (((World.Adds.of_eq rfl).then_free _).then_scopeEnd _ _)⟩
  rw [jsonrpcSendValue_of_faults_nil lib response hF hSend]
  dsimp only
  rw [jsonrpcCloseOnFailure_sent]
  exact ⟨rfl, ((hStart.trans hProc.sends).trans (World.Sends.emit_sendRaw _ _)).then_silent
    ((((World.Adds.of_eq rfl).then_free _).then_free _).then_scopeEnd _ _)⟩

end

end JsonRpc
