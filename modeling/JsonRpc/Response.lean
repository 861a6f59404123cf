import JsonRpc.World

/-! # Response envelopes and sending

`jsonrpc_build_error` and `jsonrpc_build_result` assemble `{jsonrpc, id, error | result}`
step by step; each library call that allocates may fail, and every failure path frees what
the builder holds. `jsonrpc_send_value` serializes a response and hands it to `send_raw`
with one trailing newline.
-/

namespace JsonRpc
set_option autoImplicit false

def jsonrpcErrParse : Int := -32700
def jsonrpcErrInvalidRequest : Int := -32600
def jsonrpcErrMethodNotFound : Int := -32601
def jsonrpcErrInvalidParams : Int := -32602
def jsonrpcErrInternal : Int := -32603

def jsonrpcDefaultMessage (code : Int) : String :=
  if code = jsonrpcErrParse then "Parse error"
  else if code = jsonrpcErrInvalidRequest then "Invalid Request"
  else if code = jsonrpcErrMethodNotFound then "Method not found"
  else if code = jsonrpcErrInvalidParams then "Invalid params"
  else if code = jsonrpcErrInternal then "Internal error"
  else "Server error"

/-- The parts of `jsonrpc_transport_t` the core tests: whether `send_raw` and `close` are set. -/
structure Transport where
  sendRaw : Bool
  close : Bool

/-- The JSON library's parser, given the copied line, and serializer, which returns a C string. -/
structure JsonLib where
  parse : List UInt8 → Option JsonValue
  serialize : JsonValue → List UInt8

section
variable {σ : Type}

def jsonAlloc (v : Owned) (w : World σ) : Option Owned × World σ :=
  match w.alloc with
  | (true, w) => (some v, w)
  | (false, w) => (none, w)

def jsonValueInitNull (w : World σ) : Option Owned × World σ := jsonAlloc ⟨.null, []⟩ w

def jsonValueInitObject (w : World σ) : Option Owned × World σ := jsonAlloc ⟨.object [], []⟩ w

def jsonValueInitArray (w : World σ) : Option Owned × World σ := jsonAlloc ⟨.array [], []⟩ w

def jsonrpcCopyId (id : Option JsonValue) (w : World σ) : Option Owned × World σ :=
  match id with
  | none => jsonValueInitNull w
  | some v =>
    if v.isIdType then
      match jsonAlloc ⟨v, []⟩ w with
      | (some copy, w) => (some copy, w)
      | (none, w) => jsonValueInitNull w
    else jsonValueInitNull w

/-- `json_object_set_value` of `v` under `key`; on failure nothing moves. -/
def jsonObjectSetValue (o : Owned) (key : String) (v : Owned) (w : World σ) :
    Option Owned × World σ :=
  match w.alloc with
  | (true, w) => (some (o.set key v), w)
  | (false, w) => (none, w)

def jsonrpcBuildError (id : Option JsonValue) (code : Int) (message : Option String)
    (w : World σ) : Option Owned × World σ :=
  match jsonValueInitObject w with
  | (none, w) => (none, w)
  | (some response, w) =>
  match jsonObjectSetValue response "jsonrpc" ⟨.string "2.0", []⟩ w with
  | (none, w) => (none, jsonValueFree response w)
  | (some response, w) =>
  match jsonrpcCopyId id w with
  | (none, w) => (none, jsonValueFree response w)
  | (some idCopy, w) =>
  match jsonObjectSetValue response "id" idCopy w with
  | (none, w) => (none, jsonValueFree response (jsonValueFree idCopy w))
  | (some response, w) =>
  match jsonValueInitObject w with
  | (none, w) => (none, jsonValueFree response w)
  | (some error, w) =>
  match jsonObjectSetValue error "code" ⟨.number ⟨code, 0⟩, []⟩ w with
  | (none, w) => (none, jsonValueFree response (jsonValueFree error w))
  | (some error, w) =>
  match jsonObjectSetValue error "message"
      ⟨.string (message.getD (jsonrpcDefaultMessage code)), []⟩ w with
  | (none, w) => (none, jsonValueFree response (jsonValueFree error w))
  | (some error, w) =>
  match jsonObjectSetValue response "error" error w with
  | (none, w) => (none, jsonValueFree response (jsonValueFree error w))
  | (some response, w) => (some response, w)

def jsonrpcBuildResult (id : Option JsonValue) (result : Option Owned) (w : World σ) :
    Option Owned × World σ :=
  match result with
  | none => (none, w)
  | some result =>
  match jsonValueInitObject w with
  | (none, w) => (none, jsonValueFree result w)
  | (some response, w) =>
  match jsonObjectSetValue response "jsonrpc" ⟨.string "2.0", []⟩ w with
  | (none, w) => (none, jsonValueFree response (jsonValueFree result w))
  | (some response, w) =>
  match jsonrpcCopyId id w with
  | (none, w) => (none, jsonValueFree response (jsonValueFree result w))
  | (some idCopy, w) =>
  match jsonObjectSetValue response "id" idCopy w with
  | (none, w) => (none, jsonValueFree response (jsonValueFree result (jsonValueFree idCopy w)))
  | (some response, w) =>
  match jsonObjectSetValue response "result" result w with
  | (none, w) => (none, jsonValueFree response (jsonValueFree result w))
  | (some response, w) => (some response, w)

def jsonrpcSendValue (lib : JsonLib) (transport : Transport) (value : Owned) (w : World σ) :
    Bool × World σ :=
  if transport.sendRaw then
    match w.alloc with
    | (false, w) => (false, w)
    | (true, w) =>
      let serialized := (lib.serialize value.value).takeWhile (· ≠ 0)
      match w.alloc with
      | (false, w) => (false, w)
      | (true, w) => (true, w.emit (.sendRaw (serialized ++ [10])))
  else (false, w)

/-- The id `jsonrpc_copy_id` copies: the request's id when it has an id's type, `null` otherwise. -/
def jsonrpcCopiedId : Option JsonValue → JsonValue
  | some v => if v.isIdType then v else .null
  | none => .null

def responseObject (id : Option JsonValue) (body : String × JsonValue) : JsonValue :=
  .object [("jsonrpc", .string "2.0"), ("id", jsonrpcCopiedId id), body]

def errorBody (code : Int) (message : Option String) : String × JsonValue :=
  ("error", .object [("code", .number ⟨code, 0⟩),
    ("message", .string (message.getD (jsonrpcDefaultMessage code)))])

def ResponseBody (body : String × JsonValue) : Prop :=
  body.1 = "result" ∨
    ∃ (code : Int) (message : String),
      body = ("error", .object [("code", .number ⟨code, 0⟩), ("message", .string message)])

theorem errorBody_responseBody (code : Int) (message : Option String) :
    ResponseBody (errorBody code message) :=
  .inr ⟨code, _, rfl⟩

theorem jsonrpcCopyId_of_faults_nil (id : Option JsonValue) {w : World σ} (h : w.faults = []) :
    jsonrpcCopyId id w = (some ⟨jsonrpcCopiedId id, []⟩, w) := by
  unfold jsonrpcCopyId jsonValueInitNull jsonAlloc jsonrpcCopiedId
  split
  · simp [World.alloc_of_faults_nil h]
  · split <;> simp [World.alloc_of_faults_nil h, *]

theorem jsonrpcBuildError_of_faults_nil (id : Option JsonValue) (code : Int)
    (message : Option String) {w : World σ} (h : w.faults = []) :
    jsonrpcBuildError id code message w =
      (some ⟨responseObject id (errorBody code message), []⟩, w) := by
  simp [jsonrpcBuildError, jsonValueInitObject, jsonObjectSetValue, jsonAlloc, Owned.set,
    jsonrpcCopyId_of_faults_nil id h, World.alloc_of_faults_nil h, jsonObjectSet,
    responseObject, errorBody]

theorem jsonrpcBuildResult_of_faults_nil (id : Option JsonValue) (result : Owned) {w : World σ}
    (h : w.faults = []) :
    jsonrpcBuildResult id (some result) w =
      (some ⟨responseObject id ("result", result.value), result.handles⟩, w) := by
  simp [jsonrpcBuildResult, jsonValueInitObject, jsonObjectSetValue, jsonAlloc, Owned.set,
    jsonrpcCopyId_of_faults_nil id h, World.alloc_of_faults_nil h, jsonObjectSet,
    responseObject]

theorem jsonAlloc_none {v : Owned} {w w' : World σ} (h : jsonAlloc v w = (none, w')) :
    w' = w.alloc.2 := by
  unfold jsonAlloc at h
  split at h <;> rename_i hAlloc <;> cases h
  simp [hAlloc]

theorem jsonAlloc_some {v r : Owned} {w w' : World σ} (h : jsonAlloc v w = (some r, w')) :
    w' = w.alloc.2 ∧ r = v := by
  unfold jsonAlloc at h
  split at h <;> rename_i hAlloc <;> cases h
  simp [hAlloc]

theorem jsonObjectSetValue_none {o v : Owned} {key : String} {w w' : World σ}
    (h : jsonObjectSetValue o key v w = (none, w')) : w' = w.alloc.2 := by
  unfold jsonObjectSetValue at h
  split at h <;> rename_i hAlloc <;> cases h
  simp [hAlloc]

theorem jsonObjectSetValue_some {o v r : Owned} {key : String} {w w' : World σ}
    (h : jsonObjectSetValue o key v w = (some r, w')) : w' = w.alloc.2 ∧ r = o.set key v := by
  unfold jsonObjectSetValue at h
  split at h <;> rename_i hAlloc <;> cases h
  simp [hAlloc]

theorem jsonAlloc_eq {v : Owned} {w w' : World σ} {r : Option Owned} (h : jsonAlloc v w = (r, w')) :
    w' = w.alloc.2 ∧ (r = none ∨ r = some v) := by
  unfold jsonAlloc at h
  split at h <;> rename_i hAlloc <;> simp only [Prod.mk.injEq] at h <;>
    simp [← h.1, ← h.2, hAlloc]

theorem jsonObjectSetValue_eq {o v : Owned} {key : String} {w w' : World σ} {r : Option Owned}
    (h : jsonObjectSetValue o key v w = (r, w')) :
    w' = w.alloc.2 ∧ (r = none ∨ r = some (o.set key v)) := by
  unfold jsonObjectSetValue at h
  split at h <;> rename_i hAlloc <;> simp only [Prod.mk.injEq] at h <;>
    simp [← h.1, ← h.2, hAlloc]

theorem jsonrpcCopyId_inner {id : Option JsonValue} {w w' : World σ} {r : Option Owned}
    (h : jsonrpcCopyId id w = (r, w')) (a : List Nat) :
    World.Inner w w' a a ∧ heldHandles r = [] := by
  have hInit : ∀ {w₁ : World σ}, jsonValueInitNull w₁ = (r, w') → World.Inner w₁ w' a a ∧ heldHandles r = [] := by
    intro w₁ h₁
    obtain ⟨rfl, hr⟩ := jsonAlloc_eq h₁
    rcases hr with rfl | rfl <;> exact ⟨.alloc _ _, rfl⟩
  unfold jsonrpcCopyId at h
  split at h
  · exact hInit h
  · split at h
    · split at h
      · rename_i hCopy
        obtain ⟨rfl, hr⟩ := jsonAlloc_eq hCopy
        simp only [Prod.mk.injEq] at h
        obtain ⟨rfl, rfl⟩ := h
        rcases hr with hr | hr <;> cases hr
        exact ⟨.alloc _ _, rfl⟩
      · rename_i hCopy
        obtain ⟨rfl, -⟩ := jsonAlloc_eq hCopy
        exact (hInit h).imp_left (World.Inner.alloc w a).trans
    · exact hInit h

theorem jsonrpcBuildError_inner (id : Option JsonValue) (code : Int) (message : Option String)
    (w : World σ) (a : List Nat) :
    World.Inner w (jsonrpcBuildError id code message w).2 a a ∧
      heldHandles (jsonrpcBuildError id code message w).1 = [] := by
  have h₀ := World.Inner.refl w a
  unfold jsonrpcBuildError
  split
  next h => exact ⟨jsonAlloc_none h ▸ h₀.then_alloc, rfl⟩
  next h =>
  obtain ⟨rfl, rfl⟩ := jsonAlloc_some h
  split
  next h => exact ⟨jsonObjectSetValue_none h ▸ h₀.then_alloc.then_alloc.then_free_plain rfl, rfl⟩
  next h =>
  obtain ⟨rfl, rfl⟩ := jsonObjectSetValue_some h
  split
  next h => exact ⟨(h₀.then_alloc.then_alloc.trans (jsonrpcCopyId_inner h a).1).then_free_plain rfl, rfl⟩
  next h =>
  obtain ⟨h₃, hId⟩ := jsonrpcCopyId_inner h a
  replace h₃ := h₀.then_alloc.then_alloc.trans h₃
  simp only [heldHandles_some] at hId
  split
  next h => exact ⟨jsonObjectSetValue_none h ▸ (h₃.then_alloc.then_free_plain hId).then_free_plain rfl, rfl⟩
  next h =>
  obtain ⟨rfl, rfl⟩ := jsonObjectSetValue_some h
  have hResponse := h₃.then_alloc
  split
  next h => exact ⟨jsonAlloc_none h ▸ hResponse.then_alloc.then_free_plain (by simp [hId]), rfl⟩
  next h =>
  obtain ⟨rfl, rfl⟩ := jsonAlloc_some h
  split
  next h => exact ⟨jsonObjectSetValue_none h ▸ (hResponse.then_alloc.then_alloc.then_free_plain rfl).then_free_plain (by simp [hId]), rfl⟩
  next h =>
  obtain ⟨rfl, rfl⟩ := jsonObjectSetValue_some h
  split
  next h => exact ⟨jsonObjectSetValue_none h ▸ (hResponse.then_alloc.then_alloc.then_alloc.then_free_plain rfl).then_free_plain (by simp [hId]), rfl⟩
  next h =>
  obtain ⟨rfl, rfl⟩ := jsonObjectSetValue_some h
  split
  next h => exact ⟨jsonObjectSetValue_none h ▸ (hResponse.then_alloc.then_alloc.then_alloc.then_alloc.then_free_plain rfl).then_free_plain (by simp [hId]), rfl⟩
  next h =>
  obtain ⟨rfl, rfl⟩ := jsonObjectSetValue_some h
  exact ⟨hResponse.then_alloc.then_alloc.then_alloc.then_alloc, by simp [hId]⟩

/-- `jsonrpc_build_result` consumes the result it is given, on every path. -/
theorem jsonrpcBuildResult_inner (id : Option JsonValue) (result : Option Owned) (w : World σ)
    (a : List Nat) :
    World.Inner w (jsonrpcBuildResult id result w).2 (heldHandles result ++ a)
      (heldHandles (jsonrpcBuildResult id result w).1 ++ a) := by
  unfold jsonrpcBuildResult
  split
  next => exact .refl w _
  next r =>
  have h₀ := World.Inner.refl w (r.handles ++ a)
  simp only [heldHandles_some]
  split
  next h => simpa [jsonAlloc_none h] using h₀.then_alloc.then_free r rfl
  next h =>
  obtain ⟨rfl, rfl⟩ := jsonAlloc_some h
  split
  next h =>
    simpa [jsonObjectSetValue_none h] using (h₀.then_alloc.then_alloc.then_free r rfl).then_free_plain rfl
  next h =>
  obtain ⟨rfl, rfl⟩ := jsonObjectSetValue_some h
  split
  next h =>
    simpa using ((h₀.then_alloc.then_alloc.trans (jsonrpcCopyId_inner h _).1).then_free r rfl).then_free_plain rfl
  next h =>
  obtain ⟨h₃, hId⟩ := jsonrpcCopyId_inner h (r.handles ++ a)
  replace h₃ := h₀.then_alloc.then_alloc.trans h₃
  simp only [heldHandles_some] at hId
  split
  next h =>
    simpa [jsonObjectSetValue_none h] using
      ((h₃.then_alloc.then_free_plain hId).then_free r rfl).then_free_plain rfl
  next h =>
  obtain ⟨rfl, rfl⟩ := jsonObjectSetValue_some h
  split
  next h =>
    simpa [jsonObjectSetValue_none h] using
      (h₃.then_alloc.then_alloc.then_free r rfl).then_free_plain (by simp [hId])
  next h =>
  obtain ⟨rfl, rfl⟩ := jsonObjectSetValue_some h
  simpa [hId] using h₃.then_alloc.then_alloc

theorem jsonrpcSendValue_inner (lib : JsonLib) (transport : Transport) (value : Owned)
    (w : World σ) (a : List Nat) : World.Inner w (jsonrpcSendValue lib transport value w).2 a a := by
  unfold jsonrpcSendValue
  split
  · split
    · rename_i h
      exact World.eq_alloc_snd h ▸ .alloc w a
    · rename_i h₁
      obtain rfl := World.eq_alloc_snd h₁
      split
      · rename_i h₂
        exact World.eq_alloc_snd h₂ ▸ (World.Inner.alloc w a).then_alloc
      · rename_i h₂
        obtain rfl := World.eq_alloc_snd h₂
        exact (World.Inner.alloc w a).then_alloc.trans (.emit _ a _ rfl rfl rfl rfl)
  · exact .refl w a

theorem jsonrpcSendValue_of_faults_nil (lib : JsonLib) {transport : Transport} (value : Owned)
    {w : World σ} (hFaults : w.faults = []) (hSend : transport.sendRaw = true) :
    jsonrpcSendValue lib transport value w =
      (true, w.emit (.sendRaw ((lib.serialize value.value).takeWhile (· ≠ 0) ++ [10]))) := by
  simp [jsonrpcSendValue, hSend, World.alloc_of_faults_nil hFaults]

end

end JsonRpc
