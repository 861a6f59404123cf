import JsonRpc.Response
import Mathlib.Data.List.Forall2

/-! # Validation and dispatch

`jsonrpc_process_object` checks the envelope of one message and calls `on_request` or
`on_notification`; `jsonrpc_process_value` runs it over a batch, collecting the responses
that are not absent. Strings are compared and handed to handlers as C strings.
-/

namespace JsonRpc
set_option autoImplicit false

structure JsonrpcResponse where
  result : Option JsonValue
  errorCode : Int
  errorMessage : Option String

/-- The handlers, as functions of their own state. -/
structure Callbacks (σ : Type) where
  onRequest : Option (σ → String → Option JsonValue → σ × Bool × JsonrpcResponse)
  onNotification : Option (σ → String → Option JsonValue → σ)

def jsonrpcIdIsValid : Option JsonValue → Bool
  | none => false
  | some id => id.isIdType

def jsonrpcParamsIsValid : Option JsonValue → Bool
  | none => true
  | some params => params.isStructured

section
variable {σ : Type}

/-- The core takes ownership of a value a handler or caller handed over, naming it. -/
def World.take (value : Option JsonValue) (w : World σ) : Option Owned × World σ :=
  match value with
  | none => (none, w)
  | some v => (some ⟨v, [w.handles]⟩, { w with handles := w.handles + 1 }.emit (.acquire w.handles))

def World.freeOpt (value : Option Owned) (w : World σ) : World σ :=
  match value with
  | none => w
  | some v => jsonValueFree v w

/-- The request path once `on_request` is set: call it, take its result, answer by the outcome. -/
def jsonrpcHandleRequest (handler : σ → String → Option JsonValue → σ × Bool × JsonrpcResponse)
    (id : Option JsonValue) (method : String) (params : Option JsonValue) (w : World σ) :
    Option Owned × World σ :=
  let (user, handled, response) := handler w.user method params
  let (result, w) :=
    World.take response.result ({ w with user }.emit (.request method params response.result.isSome))
  if !handled then jsonrpcBuildError id jsonrpcErrMethodNotFound none (w.freeOpt result)
  else if response.errorCode ≠ 0 then
    jsonrpcBuildError id response.errorCode response.errorMessage (w.freeOpt result)
  else if result.isNone then
    jsonrpcBuildError id jsonrpcErrInternal (some "Handler returned no result") w
  else jsonrpcBuildResult id result w

def jsonrpcProcessObject (callbacks : Callbacks σ) (value : JsonValue) (w : World σ) :
    Option Owned × World σ :=
  match jsonValueGetObject value with
  | none => jsonrpcBuildError none jsonrpcErrInvalidRequest none w
  | some obj =>
  match jsonObjectGetString obj "jsonrpc" with
  | none => jsonrpcBuildError none jsonrpcErrInvalidRequest none w
  | some version =>
  if cString version ≠ "2.0" then jsonrpcBuildError none jsonrpcErrInvalidRequest none w
  else
  match jsonObjectGetString obj "method" with
  | none => jsonrpcBuildError none jsonrpcErrInvalidRequest none w
  | some method =>
  let hasId := jsonObjectHasValue obj "id"
  let id := if hasId then jsonObjectGetValue obj "id" else none
  if hasId ∧ !jsonrpcIdIsValid id then jsonrpcBuildError none jsonrpcErrInvalidRequest none w
  else
  let params := jsonObjectGetValue obj "params"
  if !jsonrpcParamsIsValid params then
    if !hasId then (none, w) else jsonrpcBuildError id jsonrpcErrInvalidParams none w
  else if !hasId then
    match callbacks.onNotification with
    | none => (none, w)
    | some handler =>
      (none, { w with user := handler w.user (cString method) params }.emit
        (.notification (cString method) params))
  else
  match callbacks.onRequest with
  | none => jsonrpcBuildError id jsonrpcErrMethodNotFound none w
  | some handler => jsonrpcHandleRequest handler id (cString method) params w

/-- The loop of `jsonrpc_process_value` over a batch, with the responses appended so far. -/
def jsonrpcProcessBatch (callbacks : Callbacks σ) :
    List JsonValue → Owned → Nat → World σ → Option Owned × World σ
  | [], responses, count, w =>
    if count = 0 then (none, jsonValueFree responses w) else (some responses, w)
  | item :: items, responses, count, w =>
    match jsonrpcProcessObject callbacks item w with
    | (none, w) => jsonrpcProcessBatch callbacks items responses count w
    | (some response, w) =>
      match w.alloc with
      | (false, w) =>
        jsonrpcBuildError none jsonrpcErrInternal none
          (jsonValueFree responses (jsonValueFree response w))
      | (true, w) => jsonrpcProcessBatch callbacks items (responses.push response) (count + 1) w

def jsonrpcProcessValue (callbacks : Callbacks σ) (value : Option JsonValue) (w : World σ) :
    Option Owned × World σ :=
  match value with
  | none => jsonrpcBuildError none jsonrpcErrInvalidRequest none w
  | some (.array items) =>
    if items.length = 0 then jsonrpcBuildError none jsonrpcErrInvalidRequest none w
    else
      match jsonValueInitArray w with
      | (none, w) => jsonrpcBuildError none jsonrpcErrInternal none w
      | (some responses, w) => jsonrpcProcessBatch callbacks items responses 0 w
  | some value => jsonrpcProcessObject callbacks value w

theorem World.take_inner (value : Option JsonValue) (w : World σ) :
    World.Inner w (World.take value w).2 [] (heldHandles (World.take value w).1) := by
  cases value with
  | none => exact .refl w []
  | some v =>
    simp only [World.take, heldHandles_some]
    exact ⟨⟨Nat.le_succ _, [.acquire w.handles], rfl, by simp [acquired], by simp [released, acquired],
      rfl⟩, rfl, .emit _ _ rfl⟩

theorem World.request_take_inner (w : World σ) (method : String) (params result : Option JsonValue) :
    World.Inner w (World.take result (w.emit (.request method params result.isSome))).2 []
      (heldHandles (World.take result (w.emit (.request method params result.isSome))).1) := by
  cases result with
  | none => exact .emit w [] _ rfl rfl rfl rfl
  | some v =>
    have hδ : (World.take (some v) (w.emit (.request method params true))).2.trace =
        w.trace ++ [.request method params true, .acquire w.handles] := by simp [World.take]
    exact ⟨⟨Nat.le_succ _, _, hδ, by simp [World.take, acquired],
      by simp [World.take, released, acquired], rfl⟩, rfl, ⟨_, hδ, by simp [Event.inner]⟩⟩

theorem World.freeOpt_inner (value : Option Owned) (w : World σ) (a : List Nat) :
    World.Inner w (w.freeOpt value) (heldHandles value ++ a) a := by
  cases value with
  | none => exact .refl w a
  | some v => exact .free w v a

theorem jsonrpcHandleRequest_inner
    (handler : σ → String → Option JsonValue → σ × Bool × JsonrpcResponse)
    (id : Option JsonValue) (method : String) (params : Option JsonValue) (w : World σ) :
    World.Inner w (jsonrpcHandleRequest handler id method params w).2 []
      (heldHandles (jsonrpcHandleRequest handler id method params w).1) := by
  unfold jsonrpcHandleRequest
  generalize handler w.user method params = outcome
  obtain ⟨user, handled, response⟩ := outcome
  dsimp only
  have hTake := (World.Inner.setUser w user []).trans
    (World.request_take_inner { w with user } method params response.result)
  generalize World.take response.result
    ({ w with user }.emit (.request method params response.result.isSome)) = taken at hTake ⊢
  obtain ⟨result, w₁⟩ := taken
  dsimp only at hTake ⊢
  have hError : ∀ (code : Int) (message : Option String) (w₂ : World σ),
      World.Inner w w₂ [] [] → World.Inner w (jsonrpcBuildError id code message w₂).2 []
        (heldHandles (jsonrpcBuildError id code message w₂).1) := fun code message w₂ h => by
    obtain ⟨h₂, hNil⟩ := jsonrpcBuildError_inner id code message w₂ []
    exact hNil ▸ h.trans h₂
  have hFree : World.Inner w (w₁.freeOpt result) [] [] := by
    simpa using hTake.trans (by simpa using World.freeOpt_inner result w₁ [])
  split_ifs with hHandled hCode hNone
  · exact hError _ _ _ hFree
  · exact hError _ _ _ hFree
  · exact hError _ _ _ (by simpa [Option.isNone_iff_eq_none.mp hNone] using hTake)
  · exact hTake.trans (by simpa using jsonrpcBuildResult_inner id result w₁ [])

theorem jsonrpcBuildError_inner_held (id : Option JsonValue) (code : Int) (message : Option String)
    {w₀ w : World σ} {a : List Nat} (h : World.Inner w₀ w a []) :
    World.Inner w₀ (jsonrpcBuildError id code message w).2 a
      (heldHandles (jsonrpcBuildError id code message w).1) := by
  obtain ⟨hBuild, hNil⟩ := jsonrpcBuildError_inner id code message w []
  exact hNil ▸ h.trans hBuild

theorem jsonrpcProcessObject_cases (callbacks : Callbacks σ) (value : JsonValue) (w : World σ)
    (P : Option Owned × World σ → Prop)
    (hError : ∀ id code message, P (jsonrpcBuildError id code message w)) (hNone : P (none, w))
    (hNotify : ∀ (notify : σ → String → Option JsonValue → σ) method params,
      P (none, { w with user := notify w.user method params }.emit (.notification method params)))
    (hRequest : ∀ handler id method params, P (jsonrpcHandleRequest handler id method params w)) :
    P (jsonrpcProcessObject callbacks value w) := by
  unfold jsonrpcProcessObject
  split
  · exact hError _ _ _
  rename_i obj _
  split
  · exact hError _ _ _
  rename_i version _
  by_cases hVersion : cString version ≠ "2.0"
  · rw [if_pos hVersion]
    exact hError _ _ _
  rw [if_neg hVersion]
  split
  · exact hError _ _ _
  dsimp only
  generalize (if jsonObjectHasValue obj "id" = true then jsonObjectGetValue obj "id" else none) = id
  split
  · -- an id that is not a string, number or null
    exact hError _ _ _
  split
  · -- params that are not structured
    split
    · exact hNone
    · exact hError _ _ _
  split
  · -- a notification
    split
    · exact hNone
    · exact hNotify _ _ _
  split
  · exact hError _ _ _
  · exact hRequest _ _ _ _

theorem jsonrpcProcessObject_inner (callbacks : Callbacks σ) (value : JsonValue) (w : World σ) :
    World.Inner w (jsonrpcProcessObject callbacks value w).2 []
      (heldHandles (jsonrpcProcessObject callbacks value w).1) :=
  jsonrpcProcessObject_cases callbacks value w (fun r => World.Inner w r.2 [] (heldHandles r.1))
    (fun _ _ _ => jsonrpcBuildError_inner_held _ _ _ (.refl w [])) (.refl w [])
    (fun _ _ _ => (World.Inner.setUser w _ []).trans (.emit _ [] (.notification _ _) rfl rfl rfl rfl))
    (fun _ _ _ _ => jsonrpcHandleRequest_inner _ _ _ _ w)

theorem jsonrpcProcessBatch_inner (callbacks : Callbacks σ) (items : List JsonValue) :
    ∀ (responses : Owned) (count : Nat) (w : World σ),
      World.Inner w (jsonrpcProcessBatch callbacks items responses count w).2 responses.handles
        (heldHandles (jsonrpcProcessBatch callbacks items responses count w).1) := by
  induction items with
  | nil =>
    intro responses count w
    simp only [jsonrpcProcessBatch]
    split_ifs
    · simpa using World.Inner.free w responses []
    · exact .refl w _
  | cons item items ih =>
    intro responses count w
    have hItem := (jsonrpcProcessObject_inner callbacks item w).frame responses.handles
    simp only [jsonrpcProcessBatch]
    split
    next w₁ h =>
      simp only [h, heldHandles_none, List.nil_append] at hItem
      exact hItem.trans (ih responses count w₁)
    next response w₁ h =>
      simp only [h, heldHandles_some, List.nil_append] at hItem
      split
      next h₂ =>
        obtain rfl := World.eq_alloc_snd h₂
        exact jsonrpcBuildError_inner_held _ _ _
          ((hItem.then_alloc.then_free response rfl).then_free responses (List.append_nil _).symm)
      next h₂ =>
        obtain rfl := World.eq_alloc_snd h₂
        exact (hItem.then_alloc.perm (List.Perm.refl _) List.perm_append_comm).trans
          (ih (responses.push response) (count + 1) _)

theorem jsonrpcProcessValue_inner (callbacks : Callbacks σ) (value : Option JsonValue)
    (w : World σ) :
    World.Inner w (jsonrpcProcessValue callbacks value w).2 []
      (heldHandles (jsonrpcProcessValue callbacks value w).1) := by
  unfold jsonrpcProcessValue
  split
  · exact jsonrpcBuildError_inner_held _ _ _ (.refl w [])
  · split_ifs
    · exact jsonrpcBuildError_inner_held _ _ _ (.refl w [])
    · split
      next h => exact jsonrpcBuildError_inner_held _ _ _ (jsonAlloc_none h ▸ .alloc w [])
      next h =>
        obtain ⟨rfl, rfl⟩ := jsonAlloc_some h
        exact (World.Inner.alloc w []).trans (jsonrpcProcessBatch_inner callbacks _ _ 0 _)
  · exact jsonrpcProcessObject_inner callbacks _ w

/-- The envelope as the dispatcher reads it: `jsonrpc` reads "2.0" as a C string. -/
def envelopeOk (fields : List (String × JsonValue)) : Bool :=
  decide ((jsonObjectGetString fields "jsonrpc").map cString = some "2.0") &&
    (jsonObjectGetString fields "method").isSome

/-- An element that gets no response: an object with a good envelope and no `id` key. -/
def notificationShaped : JsonValue → Bool
  | .object fields => envelopeOk fields && !jsonObjectHasValue fields "id"
  | _ => false

/-- The id a response carries: the element's own when envelope and id type are good, else `null`. -/
def expectedId : JsonValue → JsonValue
  | .object fields =>
    match envelopeOk fields, jsonObjectGetValue fields "id" with
    | true, some id => if id.isIdType then id else .null
    | _, _ => .null
  | _ => .null

def IsResponseTo (element response : JsonValue) : Prop :=
  ∃ body, response = .object [("jsonrpc", .string "2.0"), ("id", expectedId element), body] ∧
    ResponseBody body

theorem jsonrpcHandleRequest_of_faults_nil
    (handler : σ → String → Option JsonValue → σ × Bool × JsonrpcResponse)
    (id : Option JsonValue) (method : String) (params : Option JsonValue) {w : World σ}
    (hFaults : w.faults = []) :
    (jsonrpcHandleRequest handler id method params w).2.faults = [] ∧
      ∃ r body, (jsonrpcHandleRequest handler id method params w).1 = some r ∧
        r.value = responseObject id body ∧ ResponseBody body := by
  unfold jsonrpcHandleRequest
  generalize handler w.user method params = outcome
  obtain ⟨user, handled, response⟩ := outcome
  dsimp only
  have hError : ∀ (code : Int) (message : Option String) (w₁ : World σ), w₁.faults = [] →
      (jsonrpcBuildError id code message w₁).2.faults = [] ∧
        ∃ r body, (jsonrpcBuildError id code message w₁).1 = some r ∧
          r.value = responseObject id body ∧ ResponseBody body := fun code message w₁ h₁ => by
    rw [jsonrpcBuildError_of_faults_nil _ _ _ h₁]
    exact ⟨h₁, _, _, rfl, rfl, errorBody_responseBody _ _⟩
  cases response.result with
  | none =>
    simp only [World.take, World.freeOpt, Option.isNone_none, if_true]
    split_ifs <;> exact hError _ _ _ hFaults
  | some v =>
    simp only [World.take, World.freeOpt, Option.isNone_some, Bool.false_eq_true, if_false]
    split_ifs
    · exact hError _ _ _ hFaults
    · exact hError _ _ _ hFaults
    · rw [jsonrpcBuildResult_of_faults_nil]
      exacts [⟨hFaults, _, _, rfl, rfl, .inl rfl⟩, hFaults]

def invalidRequestResponse : JsonValue :=
  .object [("jsonrpc", .string "2.0"), ("id", .null),
    ("error", .object [("code", .number ⟨-32600, 0⟩), ("message", .string "Invalid Request")])]

def Answers (element response : JsonValue) : Prop :=
  IsResponseTo element response ∧
    (jsonValueGetObject element = none → response = invalidRequestResponse)

theorem responseObject_invalidRequest :
    responseObject none (errorBody jsonrpcErrInvalidRequest none) = invalidRequestResponse := rfl

theorem isResponseTo_responseObject {element : JsonValue} {id : Option JsonValue}
    {body : String × JsonValue} (hId : jsonrpcCopiedId id = expectedId element)
    (hBody : ResponseBody body) : IsResponseTo element (responseObject id body) :=
  ⟨body, by rw [responseObject, hId], hBody⟩

theorem jsonrpcProcessObject_of_faults_nil (callbacks : Callbacks σ) (value : JsonValue)
    {w : World σ} (hFaults : w.faults = []) :
    (jsonrpcProcessObject callbacks value w).2.faults = [] ∧
      ((jsonrpcProcessObject callbacks value w).1 = none ↔ notificationShaped value = true) ∧
      ∀ r, (jsonrpcProcessObject callbacks value w).1 = some r → Answers value r.value := by
  have hError : ∀ (id : Option JsonValue) (code : Int) (message : Option String),
      notificationShaped value = false → jsonrpcCopiedId id = expectedId value →
      (jsonValueGetObject value = none →
        id = none ∧ code = jsonrpcErrInvalidRequest ∧ message = none) →
      (jsonrpcBuildError id code message w).2.faults = [] ∧
        ((jsonrpcBuildError id code message w).1 = none ↔ notificationShaped value = true) ∧
        ∀ r, (jsonrpcBuildError id code message w).1 = some r → Answers value r.value := by
    intro id code message hNot hId hInvalid
    rw [jsonrpcBuildError_of_faults_nil _ _ _ hFaults]
    refine ⟨hFaults, by simp [hNot], fun r hr => ?_⟩
    cases hr
    refine ⟨isResponseTo_responseObject hId (errorBody_responseBody _ _), fun hObj => ?_⟩
    obtain ⟨rfl, rfl, rfl⟩ := hInvalid hObj
    exact responseObject_invalidRequest
  cases value with
  | object fields =>
    unfold jsonrpcProcessObject
    simp only [jsonValueGetObject]
    split
    next hVersion =>
      exact hError _ _ _ (by simp [notificationShaped, envelopeOk, hVersion])
        (by simp [expectedId, envelopeOk, hVersion, jsonrpcCopiedId]) (by simp [jsonValueGetObject])
    next version hVersion =>
    by_cases hGood : cString version = "2.0"
    swap
    · rw [if_pos hGood]
      exact hError _ _ _ (by simp [notificationShaped, envelopeOk, hVersion, hGood])
        (by simp [expectedId, envelopeOk, hVersion, hGood, jsonrpcCopiedId]) (by simp [jsonValueGetObject])
    rw [if_neg (not_not.mpr hGood)]
    split
    next hMethod =>
      exact hError _ _ _ (by simp [notificationShaped, envelopeOk, hMethod])
        (by simp [expectedId, envelopeOk, hMethod, jsonrpcCopiedId]) (by simp [jsonValueGetObject])
    next method hMethod =>
    have hOk : envelopeOk fields = true := by simp [envelopeOk, hVersion, hGood, hMethod]
    cases hHas : jsonObjectHasValue fields "id" with
    | false =>
      have hNotif : notificationShaped (.object fields) = true := by
        simp [notificationShaped, hOk, hHas]
      simp only [Bool.false_eq_true, false_and, if_false, Bool.not_false, if_true]
      split_ifs
      · exact ⟨hFaults, by simp [hNotif], by simp⟩
      · split <;> exact ⟨hFaults, by simp [hNotif], by simp⟩
    | true =>
      obtain ⟨idv, hIdv⟩ := Option.isSome_iff_exists.mp hHas
      have hNot : notificationShaped (.object fields) = false := by
        simp [notificationShaped, hHas]
      simp only [if_true, hIdv, jsonrpcIdIsValid, true_and, Bool.not_true, Bool.false_eq_true,
        if_false]
      by_cases hValid : idv.isIdType = true
      · have hId : jsonrpcCopiedId (some idv) = expectedId (.object fields) := by
          simp [jsonrpcCopiedId, expectedId, hOk, hIdv, hValid]
        simp only [hValid, Bool.not_true, Bool.false_eq_true, if_false]
        split_ifs
        · exact hError _ _ _ hNot hId (by simp [jsonValueGetObject])
        · split
          · exact hError _ _ _ hNot hId (by simp [jsonValueGetObject])
          · obtain ⟨hw, r, body, hr, hValue, hBody⟩ :=
              jsonrpcHandleRequest_of_faults_nil _ (some idv) (cString method) (jsonObjectGetValue fields "params") hFaults
            refine ⟨hw, by simp [hr, hNot], fun r' hr' => ?_⟩
            rw [hr] at hr'
            cases hr'
            exact ⟨hValue ▸ isResponseTo_responseObject hId hBody, by simp [jsonValueGetObject]⟩
      · have hId : jsonrpcCopiedId none = expectedId (.object fields) := by
          simp [jsonrpcCopiedId, expectedId, hOk, hIdv, hValid]
        simp only [hValid, Bool.not_false, if_true]
        exact hError _ _ _ hNot hId (by simp [jsonValueGetObject])
  | _ => exact hError none _ _ rfl rfl fun _ => ⟨rfl, rfl, rfl⟩

theorem jsonrpcProcessBatch_of_faults_nil (callbacks : Callbacks σ) (items : List JsonValue) :
    ∀ (responses : List JsonValue) (hs : List Nat) (w : World σ), w.faults = [] →
      ∃ new, List.Forall₂ Answers (items.filter fun x => !notificationShaped x) new ∧
        (jsonrpcProcessBatch callbacks items ⟨.array responses, hs⟩ responses.length w).1.map
            Owned.value =
          if responses ++ new = [] then none else some (.array (responses ++ new)) := by
  induction items with
  | nil =>
    intro responses hs w _
    refine ⟨[], .nil, ?_⟩
    cases responses <;> simp [jsonrpcProcessBatch]
  | cons item items ih =>
    intro responses hs w hFaults
    obtain ⟨hw, hNone, hAnswer⟩ := jsonrpcProcessObject_of_faults_nil callbacks item hFaults
    simp only [jsonrpcProcessBatch]
    rcases hItem : jsonrpcProcessObject callbacks item w with ⟨_ | response, w₁⟩
    · rw [hItem] at hw hNone
      obtain ⟨new, hNew, hEq⟩ := ih responses hs w₁ hw
      exact ⟨new, by simpa [hNone.mp rfl] using hNew, hEq⟩
    · rw [hItem] at hw hNone hAnswer
      have hNotif : notificationShaped item = false := by simpa using hNone.not.mp (by simp)
      obtain ⟨new, hNew, hEq⟩ := ih (responses ++ [response.value]) (hs ++ response.handles) w₁ hw
      refine ⟨response.value :: new, ?_, ?_⟩
      · simpa [hNotif] using List.Forall₂.cons (hAnswer _ rfl) hNew
      · simpa [World.alloc_of_faults_nil hw, Owned.push] using hEq

theorem jsonrpcProcessBatch_faults (callbacks : Callbacks σ) (items : List JsonValue) :
    ∀ (responses : Owned) (count : Nat) (w : World σ), w.faults = [] →
      (jsonrpcProcessBatch callbacks items responses count w).2.faults = [] := by
  induction items with
  | nil => intro responses count w h; simp only [jsonrpcProcessBatch]; split_ifs <;> exact h
  | cons item items ih =>
    intro responses count w hFaults
    have hw := (jsonrpcProcessObject_of_faults_nil callbacks item hFaults).1
    simp only [jsonrpcProcessBatch]
    rcases hItem : jsonrpcProcessObject callbacks item w with ⟨_ | response, w₁⟩ <;> rw [hItem] at hw
    · exact ih _ _ _ hw
    · simp only [World.alloc_of_faults_nil hw]
      exact ih _ _ _ hw

theorem jsonrpcProcessValue_faults (callbacks : Callbacks σ) (value : Option JsonValue)
    {w : World σ} (hFaults : w.faults = []) : (jsonrpcProcessValue callbacks value w).2.faults = [] := by
  unfold jsonrpcProcessValue
  split
  · rw [jsonrpcBuildError_of_faults_nil _ _ _ hFaults]; exact hFaults
  · split_ifs
    · rw [jsonrpcBuildError_of_faults_nil _ _ _ hFaults]; exact hFaults
    · simp only [jsonValueInitArray, jsonAlloc, World.alloc_of_faults_nil hFaults]
      exact jsonrpcProcessBatch_faults callbacks _ _ _ _ hFaults
  · exact (jsonrpcProcessObject_of_faults_nil callbacks _ hFaults).1

/-- Batch and notification semantics, with every allocation succeeding, whatever the handlers do. -/
theorem jsonrpcProcessValue_batch (callbacks : Callbacks σ) (value : JsonValue) {w : World σ}
    (hFaults : w.faults = []) :
    ((jsonrpcProcessValue callbacks (some value) w).1 = none ↔
        notificationShaped value = true ∨
          ∃ items, value = .array items ∧ items ≠ [] ∧ ∀ x ∈ items, notificationShaped x = true) ∧
      (∀ items, value = .array items → (∃ x ∈ items, notificationShaped x = false) →
        ∃ responses, (jsonrpcProcessValue callbacks (some value) w).1.map Owned.value =
            some (.array responses) ∧
          List.Forall₂ Answers (items.filter fun x => !notificationShaped x) responses) ∧
      ((∀ items, value = .array items → items = []) →
        ∀ r, (jsonrpcProcessValue callbacks (some value) w).1 = some r → Answers value r.value) := by
  cases value with
  | array items =>
    simp only [jsonrpcProcessValue, List.length_eq_zero]
    split_ifs with hEmpty
    · subst hEmpty
      rw [jsonrpcBuildError_of_faults_nil _ _ _ hFaults]
      refine ⟨by simp [notificationShaped], by simp, fun _ r hr => ?_⟩
      cases hr
      exact ⟨isResponseTo_responseObject rfl (errorBody_responseBody _ _),
        fun _ => responseObject_invalidRequest⟩
    · simp only [jsonValueInitArray, jsonAlloc, World.alloc_of_faults_nil hFaults]
      obtain ⟨new, hNew, hEq⟩ := jsonrpcProcessBatch_of_faults_nil callbacks items [] [] w hFaults
      simp only [List.nil_append, List.length_nil] at hEq
      have hLen := hNew.length_eq
      refine ⟨?_, fun items' hItems hSome => ?_, fun hNil => absurd (hNil items rfl) hEmpty⟩
      · have hArr : notificationShaped (.array items) = false := rfl
        have hFilter : new = [] ↔ ∀ x ∈ items, notificationShaped x = true := by
          rw [← List.length_eq_zero, ← hLen, List.length_eq_zero, List.filter_eq_nil_iff]
          simp
        rw [← Option.map_eq_none', hEq, hArr]
        split_ifs with hNew' <;> simp [hEmpty, ← hFilter, hNew']
      · cases hItems
        obtain ⟨x, hx, hNotif⟩ := hSome
        have hNonEmpty : new ≠ [] := by
          rw [← List.length_pos, ← hLen, List.length_pos]
          exact List.ne_nil_of_mem (List.mem_filter.mpr ⟨hx, by simp [hNotif]⟩)
        exact ⟨new, by rw [hEq, if_neg hNonEmpty], hNew⟩
  | _ =>
    obtain ⟨-, hNone, hAnswer⟩ := jsonrpcProcessObject_of_faults_nil callbacks _ hFaults
    refine ⟨by simpa using hNone, by simp, fun _ => hAnswer⟩

theorem jsonrpcProcessValue_batch_mixed :
    ((jsonrpcProcessValue
        (⟨some fun u _ _ => (u, true, ⟨some .null, 0, none⟩), none⟩ : Callbacks Unit)
        (some (.array
          [.object [("jsonrpc", .string "2.0"), ("method", .string "ping"), ("id", .number ⟨1, 0⟩)],
            .object [("jsonrpc", .string "2.0"), ("method", .string "note")], .null]))
        ⟨(), [], 0, none, []⟩).1 = none ↔
        notificationShaped (.array
          [.object [("jsonrpc", .string "2.0"), ("method", .string "ping"), ("id", .number ⟨1, 0⟩)],
            .object [("jsonrpc", .string "2.0"), ("method", .string "note")], .null]) = true ∨
          ∃ items, JsonValue.array
            [.object [("jsonrpc", .string "2.0"), ("method", .string "ping"), ("id", .number ⟨1, 0⟩)],
              .object [("jsonrpc", .string "2.0"), ("method", .string "note")], .null] =
              .array items ∧ items ≠ [] ∧ ∀ x ∈ items, notificationShaped x = true) ∧
      (∀ items, JsonValue.array
          [.object [("jsonrpc", .string "2.0"), ("method", .string "ping"), ("id", .number ⟨1, 0⟩)],
            .object [("jsonrpc", .string "2.0"), ("method", .string "note")], .null] = .array items →
        (∃ x ∈ items, notificationShaped x = false) →
        ∃ responses, (jsonrpcProcessValue
            (⟨some fun u _ _ => (u, true, ⟨some .null, 0, none⟩), none⟩ : Callbacks Unit)
            (some (.array
              [.object [("jsonrpc", .string "2.0"), ("method", .string "ping"),
                  ("id", .number ⟨1, 0⟩)],
                .object [("jsonrpc", .string "2.0"), ("method", .string "note")], .null]))
            ⟨(), [], 0, none, []⟩).1.map Owned.value = some (.array responses) ∧
          List.Forall₂ Answers (items.filter fun x => !notificationShaped x) responses) ∧
      ((∀ items, JsonValue.array
          [.object [("jsonrpc", .string "2.0"), ("method", .string "ping"), ("id", .number ⟨1, 0⟩)],
            .object [("jsonrpc", .string "2.0"), ("method", .string "note")], .null] = .array items →
          items = []) →
        ∀ r, (jsonrpcProcessValue
          (⟨some fun u _ _ => (u, true, ⟨some .null, 0, none⟩), none⟩ : Callbacks Unit)
          (some (.array
            [.object [("jsonrpc", .string "2.0"), ("method", .string "ping"), ("id", .number ⟨1, 0⟩)],
              .object [("jsonrpc", .string "2.0"), ("method", .string "note")], .null]))
          ⟨(), [], 0, none, []⟩).1 = some r →
          Answers (.array
            [.object [("jsonrpc", .string "2.0"), ("method", .string "ping"), ("id", .number ⟨1, 0⟩)],
              .object [("jsonrpc", .string "2.0"), ("method", .string "note")], .null]) r.value) :=
  jsonrpcProcessValue_batch _ _ rfl

/-- `{"jsonrpc": "2.0\u0000", "method": "m"}` passes the C-string version test: no response. -/
theorem jsonrpcProcessValue_nul_version :
    jsonObjectGetString [("jsonrpc", .string "2.0\x00"), ("method", .string "m")] "jsonrpc" ≠
        some "2.0" ∧
      (jsonrpcProcessValue (⟨none, none⟩ : Callbacks Unit)
        (some (.object [("jsonrpc", .string "2.0\x00"), ("method", .string "m")]))
        ⟨(), [], 0, none, []⟩).1 = none := by
  decide

end

end JsonRpc
