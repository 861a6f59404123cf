import Mathlib.Data.List.Basic

/-! # JSON values as the core reads and builds them

The JSON library is outside the repository. The core reaches it only through value
types, object lookup by key, object update and C-string views of strings; those are
modelled here. A number is the finite double `mantissa * 2 ^ exponent`: the core only
tests for numbers, copies them and writes error codes.
-/

namespace JsonRpc
set_option autoImplicit false

structure JsonNumber where
  mantissa : Int
  exponent : Int
  deriving DecidableEq, Repr

inductive JsonValue where
  | null
  | string (chars : String)
  | number (n : JsonNumber)
  | boolean (b : Bool)
  | array (items : List JsonValue)
  | object (fields : List (String × JsonValue))
  deriving Repr

mutual
def JsonValue.decEq : (a b : JsonValue) → Decidable (a = b)
  | .null, .null => isTrue rfl
  | .string s, .string t =>
    if h : s = t then isTrue (h ▸ rfl) else isFalse (fun e => by cases e; exact h rfl)
  | .number s, .number t =>
    if h : s = t then isTrue (h ▸ rfl) else isFalse (fun e => by cases e; exact h rfl)
  | .boolean s, .boolean t =>
    if h : s = t then isTrue (h ▸ rfl) else isFalse (fun e => by cases e; exact h rfl)
  | .array xs, .array ys =>
    match JsonValue.decEqItems xs ys with
    | isTrue h => isTrue (h ▸ rfl)
    | isFalse h => isFalse (fun e => by cases e; exact h rfl)
  | .object xs, .object ys =>
    match JsonValue.decEqFields xs ys with
    | isTrue h => isTrue (h ▸ rfl)
    | isFalse h => isFalse (fun e => by cases e; exact h rfl)
  | .null, .string _ | .null, .number _ | .null, .boolean _ | .null, .array _
  | .null, .object _ | .string _, .null | .string _, .number _ | .string _, .boolean _
  | .string _, .array _ | .string _, .object _ | .number _, .null | .number _, .string _
  | .number _, .boolean _ | .number _, .array _ | .number _, .object _
  | .boolean _, .null | .boolean _, .string _ | .boolean _, .number _
  | .boolean _, .array _ | .boolean _, .object _ | .array _, .null | .array _, .string _
  | .array _, .number _ | .array _, .boolean _ | .array _, .object _ | .object _, .null
  | .object _, .string _ | .object _, .number _ | .object _, .boolean _
  | .object _, .array _ => isFalse (fun e => by cases e)
def JsonValue.decEqItems : (a b : List JsonValue) → Decidable (a = b)
  | [], [] => isTrue rfl
  | [], _ :: _ | _ :: _, [] => isFalse (fun e => by cases e)
  | x :: xs, y :: ys =>
    match JsonValue.decEq x y, JsonValue.decEqItems xs ys with
    | isTrue h, isTrue h' => isTrue (h ▸ h' ▸ rfl)
    | isFalse h, _ => isFalse (fun e => by cases e; exact h rfl)
    | _, isFalse h => isFalse (fun e => by cases e; exact h rfl)
def JsonValue.decEqFields : (a b : List (String × JsonValue)) → Decidable (a = b)
  | [], [] => isTrue rfl
  | [], _ :: _ | _ :: _, [] => isFalse (fun e => by cases e)
  | (k, x) :: xs, (l, y) :: ys =>
    if hk : k = l then
      match JsonValue.decEq x y, JsonValue.decEqFields xs ys with
      | isTrue h, isTrue h' => isTrue (hk ▸ h ▸ h' ▸ rfl)
      | isFalse h, _ => isFalse (fun e => by cases e; exact h rfl)
      | _, isFalse h => isFalse (fun e => by cases e; exact h rfl)
    else isFalse (fun e => by cases e; exact hk rfl)
end

instance : DecidableEq JsonValue := JsonValue.decEq

def jsonValueGetObject : JsonValue → Option (List (String × JsonValue))
  | .object fields => some fields
  | _ => none

def jsonObjectGetValue (fields : List (String × JsonValue)) (key : String) :
    Option JsonValue :=
  fields.lookup key

def jsonObjectHasValue (fields : List (String × JsonValue)) (key : String) : Bool :=
  (jsonObjectGetValue fields key).isSome

def jsonObjectGetString (fields : List (String × JsonValue)) (key : String) : Option String :=
  match jsonObjectGetValue fields key with
  | some (.string s) => some s
  | _ => none

/-- `json_object_set_value` after its allocation: replace under the key, or add at the end. -/
def jsonObjectSet : List (String × JsonValue) → String → JsonValue → List (String × JsonValue)
  | [], key, v => [(key, v)]
  | (k, old) :: rest, key, v =>
    if k = key then (key, v) :: rest else (k, old) :: jsonObjectSet rest key v

/-- The `const char *` view of a JSON string: its characters up to the first NUL. -/
def cString (s : String) : String :=
  ⟨s.data.takeWhile (· ≠ Char.ofNat 0)⟩

def JsonValue.isIdType : JsonValue → Bool
  | .string _ | .number _ | .null => true
  | _ => false

def JsonValue.isStructured : JsonValue → Bool
  | .array _ | .object _ => true
  | _ => false

@[simp] theorem jsonObjectSet_nil (key : String) (v : JsonValue) :
    jsonObjectSet [] key v = [(key, v)] := rfl

theorem jsonObjectSet_of_ne {fields : List (String × JsonValue)} {key : String}
    (hKey : ∀ p ∈ fields, p.1 ≠ key) (v : JsonValue) :
    jsonObjectSet fields key v = fields ++ [(key, v)] := by
  induction fields with
  | nil => rfl
  | cons p rest ih =>
    obtain ⟨k, old⟩ := p
    simp only [jsonObjectSet, List.mem_cons, forall_eq_or_imp] at hKey ⊢
    rw [if_neg hKey.1, ih hKey.2]
    rfl

@[simp] theorem jsonObjectGetValue_cons (k key : String) (v : JsonValue)
    (rest : List (String × JsonValue)) :
    jsonObjectGetValue ((k, v) :: rest) key =
      if k = key then some v else jsonObjectGetValue rest key := by
  rw [jsonObjectGetValue, List.lookup_cons]
  by_cases h : key = k
  · simp [h]
  · simp [beq_false_of_ne h, Ne.symm h, jsonObjectGetValue]

@[simp] theorem jsonObjectGetValue_nil (key : String) : jsonObjectGetValue [] key = none := rfl

end JsonRpc
