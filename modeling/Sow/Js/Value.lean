import Sow.Js.String

namespace sow.js

/-- A thrown value; nobody looks at it. -/
structure Raised where
  deriving DecidableEq

/-- A value that is not trusted to be well formed. The read of a property of an object may throw. -/
inductive Value where
  | undefined
  | null
  | bool (b : Bool)
  | num (text : JsString)
  | str (s : JsString)
  | arr (items : List Value)
  | obj (fields : List (JsString × Except Raised Value))
  /-- A function, a symbol or a big integer. -/
  | other

namespace Value

/-- `v == null` -/
def isNullish : Value → Bool
  | .undefined => true
  | .null => true
  | _ => false

/-- `v != null && typeof v === "object"` -/
def isObject : Value → Bool
  | .arr _ => true
  | .obj _ => true
  | _ => false

/-- `v[key]`, for a key that no array or string has. -/
def get (v : Value) (key : JsString) : Except Raised Value :=
  match v with
  | .undefined => .error ⟨⟩
  | .null => .error ⟨⟩
  | .obj fields => (fields.lookup key).getD (.ok .undefined)
  | _ => .ok .undefined

/-- `v?.[key]` -/
def getOptional (v : Value) (key : JsString) : Except Raised Value := if v.isNullish then .ok .undefined else v.get key

/-- The text of a string. -/
def text? : Value → Option JsString
  | .str s => some s
  | _ => none

/-- The items of an array. -/
def items? : Value → Option (List Value)
  | .arr items => some items
  | _ => none

/-- The text of a string that is not empty. -/
def nonEmpty? (v : Value) : Option { s : JsString // s ≠ [] } :=
  match v with
  | .str s => if h : s = [] then none else some ⟨s, h⟩
  | _ => none

theorem nonEmpty_ne_nil (s : { s : JsString // s ≠ [] }) : s.1 ≠ [] := s.2

theorem nonEmpty?_eq_some {v : Value} {s : { s : JsString // s ≠ [] }} (h : v.nonEmpty? = some s) : v = .str s.1 := by
  cases v with
  | str t =>
    dsimp only [nonEmpty?] at h
    split_ifs at h
    obtain rfl := Option.some.inj h
    rfl
  | _ => cases h

theorem text?_eq_some {v : Value} {s : JsString} (h : v.text? = some s) : v = .str s := by
  cases v with
  | str t => rw [Option.some.inj h]
  | _ => cases h

theorem items?_eq_some {v : Value} {items : List Value} (h : v.items? = some items) : v = .arr items := by
  cases v with
  | arr items' => rw [Option.some.inj h]
  | _ => cases h

end Value

theorem exists_of_bind_ok {α β : Type} {x : Except Raised α} {f : α → Except Raised β} {b : β} (h : (x >>= f) = .ok b) :
    ∃ a, x = .ok a ∧ f a = .ok b := by
  cases x with
  | error e => cases h
  | ok a => exact ⟨a, rfl, h⟩

/-- `try` around a computation whose failure leaves nothing behind. -/
def caught {α : Type} (x : Except Raised α) : Except Raised (Option α) := tryCatch (some <$> x) fun _ => pure none

@[simp] theorem caught_ok {α : Type} (a : α) : caught (.ok a) = .ok (some a) := rfl

@[simp] theorem caught_error {α : Type} (e : Raised) : caught (.error e : Except Raised α) = .ok none := rfl

end sow.js
