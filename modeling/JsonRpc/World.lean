import JsonRpc.Json

/-! # The world a connection runs in

The core's state outside the connection record: the handlers' own state, the outcome of
the coming allocations of the JSON library and of `jsonrpc_arena_malloc`, the counter that
names handler results, the arena binding, and the trace of what the core did. The trace
records the callbacks and transport calls, and as ghost events the ownership ledger of
handler results, the lines given to the parser and the arena resets.
-/

namespace JsonRpc
set_option autoImplicit false

inductive Event where
  /-- `on_request` was called; `result` says whether it set `descriptor.result`. -/
  | request (method : String) (params : Option JsonValue) (result : Bool)
  | notification (method : String) (params : Option JsonValue)
  | acquire (handle : Nat)
  | release (handles : List Nat)
  | parse (line : List UInt8)
  | sendRaw (payload : List UInt8)
  | close
  | arenaClear (arena : Nat)
  deriving DecidableEq

structure World (σ : Type) where
  user : σ
  /-- Outcome of the coming allocations, `true` when one fails; all succeed past the list. -/
  faults : List Bool
  handles : Nat
  current : Option Nat
  trace : List Event

section
variable {σ : Type}

def World.alloc (w : World σ) : Bool × World σ :=
  match w.faults with
  | true :: faults => (false, { w with faults })
  | _ => (true, { w with faults := w.faults.tail })

def World.emit (w : World σ) (e : Event) : World σ := { w with trace := w.trace ++ [e] }

/-- A JSON value the core holds, with the handler results it owns. -/
structure Owned where
  value : JsonValue
  handles : List Nat
  deriving DecidableEq

def Owned.set (o : Owned) (key : String) (v : Owned) : Owned :=
  ⟨match o.value with
    | .object fields => .object (jsonObjectSet fields key v.value)
    | other => other,
    o.handles ++ v.handles⟩

def Owned.push (o : Owned) (v : Owned) : Owned :=
  ⟨match o.value with
    | .array items => .array (items ++ [v.value])
    | other => other,
    o.handles ++ v.handles⟩

def jsonValueFree (v : Owned) (w : World σ) : World σ := w.emit (.release v.handles)

@[simp] theorem Owned.set_handles (o v : Owned) (key : String) :
    (o.set key v).handles = o.handles ++ v.handles := rfl
@[simp] theorem Owned.push_handles (o v : Owned) : (o.push v).handles = o.handles ++ v.handles := rfl

def released : List Event → List Nat
  | [] => []
  | .release hs :: rest => hs ++ released rest
  | _ :: rest => released rest

def acquired : List Event → List Nat
  | [] => []
  | .acquire h :: rest => h :: acquired rest
  | _ :: rest => acquired rest

def Event.setsResult : Event → Bool
  | .request _ _ result => result
  | _ => false

def Event.isAcquire : Event → Bool
  | .acquire _ => true
  | _ => false

/-- Every `on_request` call that set a result is followed at once by the core taking it. -/
def requestsTaken : List Event → Bool
  | [] => true
  | e :: rest => (!e.setsResult || rest.head?.any Event.isAcquire) && requestsTaken rest

theorem requestsTaken_append {b : List Event} (hb : requestsTaken b = true) :
    ∀ {a : List Event}, requestsTaken a = true → requestsTaken (a ++ b) = true
  | [], _ => hb
  | e :: a, ha => by
    simp only [requestsTaken, Bool.and_eq_true] at ha
    refine (Bool.and_eq_true _ _).mpr ⟨?_, requestsTaken_append hb ha.2⟩
    cases a with
    | nil => simp_all
    | cons x a => exact ha.1

example : requestsTaken [.request "m" none true, .acquire 0, .request "n" none false] = true ∧
    requestsTaken [.request "m" none true, .release []] = false := ⟨rfl, rfl⟩

@[simp] theorem World.emit_user (w : World σ) (e : Event) : (w.emit e).user = w.user := rfl
@[simp] theorem World.emit_faults (w : World σ) (e : Event) : (w.emit e).faults = w.faults := rfl
@[simp] theorem World.emit_handles (w : World σ) (e : Event) : (w.emit e).handles = w.handles := rfl
@[simp] theorem World.emit_current (w : World σ) (e : Event) : (w.emit e).current = w.current := rfl
@[simp] theorem World.emit_trace (w : World σ) (e : Event) : (w.emit e).trace = w.trace ++ [e] := rfl

@[simp] theorem released_append (a b : List Event) : released (a ++ b) = released a ++ released b := by
  induction a with
  | nil => rfl
  | cons e a ih => cases e <;> simp [released, ih]

@[simp] theorem acquired_append (a b : List Event) : acquired (a ++ b) = acquired a ++ acquired b := by
  induction a with
  | nil => rfl
  | cons e a ih => cases e <;> simp [acquired, ih]

theorem World.alloc_of_faults_nil {w : World σ} (h : w.faults = []) : w.alloc = (true, w) := by
  obtain ⟨user, faults, handles, current, trace⟩ := w
  subst h
  rfl

theorem World.alloc_snd (w : World σ) : w.alloc.2 = { w with faults := w.faults.tail } := by
  unfold World.alloc
  split <;> simp_all

theorem World.eq_alloc_snd {w w' : World σ} {b : Bool} (h : w.alloc = (b, w')) : w' = w.alloc.2 := by
  rw [h]

/-- The events of the dispatcher, the builders and the senders: all but a close and a parse. -/
def Event.inner : Event → Bool
  | .close | .parse _ => false
  | _ => true

def heldHandles : Option Owned → List Nat
  | none => []
  | some v => v.handles

@[simp] theorem heldHandles_none : heldHandles none = [] := rfl
@[simp] theorem heldHandles_some (v : Owned) : heldHandles (some v) = v.handles := rfl

/-- A stretch of run from holding `held` to holding `out` that releases each result it had once. -/
structure World.Ledger (w w' : World σ) (held out : List Nat) : Prop where
  handles_le : w.handles ≤ w'.handles
  trace : ∃ δ, w'.trace = w.trace ++ δ ∧
    acquired δ = List.range' w.handles (w'.handles - w.handles) ∧
    (released δ ++ out).Perm (held ++ acquired δ) ∧ requestsTaken δ = true

def World.Adds (p : Event → Bool) (w w' : World σ) : Prop :=
  ∃ δ, w'.trace = w.trace ++ δ ∧ ∀ e ∈ δ, p e = true

/-- A call below the message epoch: a ledger stretch of inner events that keeps the binding. -/
structure World.Inner (w w' : World σ) (held out : List Nat) extends World.Ledger w w' held out :
    Prop where
  current : w'.current = w.current
  adds : World.Adds Event.inner w w'

namespace World.Ledger

variable {w₁ w₂ w₃ : World σ} {a b c : List Nat}

theorem of_eq (a : List Nat) (hTrace : w₂.trace = w₁.trace) (hHandles : w₂.handles = w₁.handles) :
    Ledger w₁ w₂ a a :=
  ⟨hHandles.ge, [], by simp [hTrace], by simp [hHandles, acquired], by simp [released, acquired], rfl⟩

theorem trans (h₁ : Ledger w₁ w₂ a b) (h₂ : Ledger w₂ w₃ b c) : Ledger w₁ w₃ a c := by
  obtain ⟨hle₁, δ₁, hδ₁, hacq₁, hperm₁, hreq₁⟩ := h₁
  obtain ⟨hle₂, δ₂, hδ₂, hacq₂, hperm₂, hreq₂⟩ := h₂
  refine ⟨hle₁.trans hle₂, δ₁ ++ δ₂, by simp [hδ₂, hδ₁], ?_, ?_, requestsTaken_append hreq₂ hreq₁⟩
  · have hRange := List.range'_append w₁.handles (w₂.handles - w₁.handles) (w₃.handles - w₂.handles) 1
    rw [Nat.one_mul, Nat.add_sub_cancel' hle₁, Nat.sub_add_sub_cancel hle₂ hle₁] at hRange
    rw [acquired_append, hacq₁, hacq₂, hRange]
  · simp only [released_append, acquired_append, List.append_assoc]
    exact (hperm₂.append_left _).trans (by simpa using hperm₁.append_right (acquired δ₂))

theorem perm (h : Ledger w₁ w₂ a b) {a' b' : List Nat} (ha : a.Perm a') (hb : b.Perm b') :
    Ledger w₁ w₂ a' b' := by
  obtain ⟨hle, δ, hδ, hacq, hperm, hreq⟩ := h
  exact ⟨hle, δ, hδ, hacq, ((hb.append_left _).symm.trans hperm).trans (ha.append_right _), hreq⟩

theorem frame (h : Ledger w₁ w₂ a b) (c : List Nat) : Ledger w₁ w₂ (a ++ c) (b ++ c) := by
  obtain ⟨hle, δ, hδ, hacq, hperm, hreq⟩ := h
  refine ⟨hle, δ, hδ, hacq, ?_, hreq⟩
  rw [← List.append_assoc]
  exact (hperm.append_right c).trans (by simpa using List.perm_append_comm.append_left a)

theorem free (w : World σ) (v : Owned) (a : List Nat) :
    Ledger w (jsonValueFree v w) (v.handles ++ a) a :=
  ⟨le_rfl, [.release v.handles], rfl, by simp [acquired, jsonValueFree],
    by simp [released, acquired], rfl⟩

theorem emit (w : World σ) (a : List Nat) (e : Event) (hAcq : acquired [e] = [])
    (hRel : released [e] = []) (hReq : e.setsResult = false) : Ledger w (w.emit e) a a :=
  ⟨le_rfl, [e], rfl, by simpa using hAcq, by simp [hRel, hAcq], by simp [requestsTaken, hReq]⟩

end World.Ledger

namespace World.Adds

variable {p : Event → Bool} {w₁ w₂ w₃ : World σ}

theorem of_eq (hTrace : w₂.trace = w₁.trace) : Adds p w₁ w₂ := ⟨[], by simp [hTrace], by simp⟩

theorem trans (h₁ : Adds p w₁ w₂) (h₂ : Adds p w₂ w₃) : Adds p w₁ w₃ := by
  obtain ⟨δ₁, hδ₁, hp₁⟩ := h₁
  obtain ⟨δ₂, hδ₂, hp₂⟩ := h₂
  refine ⟨δ₁ ++ δ₂, by simp [hδ₂, hδ₁], fun e he => ?_⟩
  rcases List.mem_append.mp he with he | he
  exacts [hp₁ e he, hp₂ e he]

theorem emit (w : World σ) (e : Event) (he : p e = true) : Adds p w (w.emit e) :=
  ⟨[e], rfl, by simpa using he⟩

theorem mono {q : Event → Bool} (h : Adds p w₁ w₂) (hpq : ∀ e, p e = true → q e = true) :
    Adds q w₁ w₂ := by
  obtain ⟨δ, hδ, hp⟩ := h
  exact ⟨δ, hδ, fun e he => hpq e (hp e he)⟩

end World.Adds

namespace World.Inner

variable {w₁ w₂ w₃ : World σ} {a b c : List Nat}

theorem refl (w : World σ) (a : List Nat) : Inner w w a a :=
  ⟨.of_eq a rfl rfl, rfl, .of_eq rfl⟩

theorem trans (h₁ : Inner w₁ w₂ a b) (h₂ : Inner w₂ w₃ b c) : Inner w₁ w₃ a c :=
  ⟨h₁.toLedger.trans h₂.toLedger, h₂.current.trans h₁.current, h₁.adds.trans h₂.adds⟩

theorem perm (h : Inner w₁ w₂ a b) {a' b' : List Nat} (ha : a.Perm a') (hb : b.Perm b') :
    Inner w₁ w₂ a' b' :=
  ⟨h.toLedger.perm ha hb, h.current, h.adds⟩

theorem frame (h : Inner w₁ w₂ a b) (c : List Nat) : Inner w₁ w₂ (a ++ c) (b ++ c) :=
  ⟨h.toLedger.frame c, h.current, h.adds⟩

theorem alloc (w : World σ) (a : List Nat) : Inner w w.alloc.2 a a := by
  rw [World.alloc_snd]
  exact ⟨.of_eq a rfl rfl, rfl, .of_eq rfl⟩

theorem free (w : World σ) (v : Owned) (a : List Nat) :
    Inner w (jsonValueFree v w) (v.handles ++ a) a :=
  ⟨.free w v a, rfl, .emit w _ rfl⟩

theorem setUser (w : World σ) (user : σ) (a : List Nat) : Inner w { w with user } a a :=
  ⟨.of_eq a rfl rfl, rfl, .of_eq rfl⟩

theorem then_alloc (h : Inner w₁ w₂ a b) : Inner w₁ w₂.alloc.2 a b := h.trans (alloc w₂ b)

theorem then_free (h : Inner w₁ w₂ a b) (v : Owned) {c : List Nat} (hb : b = v.handles ++ c) :
    Inner w₁ (jsonValueFree v w₂) a c :=
  h.trans (hb ▸ free w₂ v c)

theorem then_free_plain (h : Inner w₁ w₂ a b) {v : Owned} (hv : v.handles = []) :
    Inner w₁ (jsonValueFree v w₂) a b :=
  h.then_free v (by simp [hv])

theorem emit (w : World σ) (a : List Nat) (e : Event) (he : e.inner = true)
    (hAcq : acquired [e] = []) (hRel : released [e] = []) (hReq : e.setsResult = false) :
    Inner w (w.emit e) a a :=
  ⟨.emit w a e hAcq hRel hReq, rfl, .emit w e he⟩

end World.Inner

end

end JsonRpc
