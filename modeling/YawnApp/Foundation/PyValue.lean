/-
  Foundation/PyValue.lean --- the values a Python program reads from a JSON text.

  Integers and floats are different values that may be equal, `True` equals one,
  and an object is equal to itself.  A JSON text has no number that is not one,
  so equality is reflexive.  The lemmas say when a subscript answers.
-/
import Mathlib.Data.Rat.Defs
import Mathlib.Data.List.Basic
import Mathlib.Tactic.Linarith
import YawnApp.Foundation.Refusal

set_option autoImplicit false

namespace YawnApp.Foundation

/-- A float that a JSON text can hold. -/
inductive PyFloat where
  | finite (value : ℚ)
  | infinite (negative : Bool)
deriving DecidableEq

/-- A value; a dictionary keeps its items in the order in which they were put in. -/
inductive PyValue where
  | none
  | bool (value : Bool)
  | int (value : ℤ)
  | float (value : PyFloat)
  | str (value : String)
  | list (items : List PyValue)
  | dict (fields : List (String × PyValue))

namespace PyValue

mutual

/-- Whether two values are built alike. -/
def alike : PyValue → PyValue → Bool
  | .none, .none => true
  | .bool a, .bool b => a == b
  | .int a, .int b => a == b
  | .float a, .float b => decide (a = b)
  | .str a, .str b => a == b
  | .list a, .list b => alikeItems a b
  | .dict a, .dict b => alikeFields a b
  | _, _ => false

def alikeItems : List PyValue → List PyValue → Bool
  | [], [] => true
  | a :: as, b :: bs => alike a b && alikeItems as bs
  | _, _ => false

def alikeFields : List (String × PyValue) → List (String × PyValue) → Bool
  | [], [] => true
  | (k, a) :: as, (l, b) :: bs => k == l && alike a b && alikeFields as bs
  | _, _ => false

end

mutual

theorem alike_iff : ∀ a b : PyValue, alike a b = true ↔ a = b
  | .none, b => by cases b <;> simp [alike]
  | .bool _, b => by cases b <;> simp [alike]
  | .int _, b => by cases b <;> simp [alike]
  | .float _, b => by cases b <;> simp [alike]
  | .str _, b => by cases b <;> simp [alike]
  | .list x, b => by
    cases b with
    | list y => simp [alike, alikeItems_iff x y]
    | _ => simp [alike]
  | .dict x, b => by
    cases b with
    | dict y => simp [alike, alikeFields_iff x y]
    | _ => simp [alike]

theorem alikeItems_iff : ∀ a b : List PyValue, alikeItems a b = true ↔ a = b
  | [], b => by cases b <;> simp [alikeItems]
  | x :: xs, b => by
    cases b with
    | nil => simp [alikeItems]
    | cons y ys => simp [alikeItems, alike_iff x y, alikeItems_iff xs ys]

theorem alikeFields_iff : ∀ a b : List (String × PyValue), alikeFields a b = true ↔ a = b
  | [], b => by cases b <;> simp [alikeFields]
  | (k, x) :: xs, b => by
    cases b with
    | nil => simp [alikeFields]
    | cons y ys =>
      obtain ⟨l, y⟩ := y
      simp [alikeFields, alike_iff x y, alikeFields_iff xs ys, and_assoc]

end

instance : DecidableEq PyValue := fun a b => decidable_of_iff _ (alike_iff a b)

/-- The number a value counts as. -/
def number : PyValue → Option PyFloat
  | .bool value => some (.finite (if value then 1 else 0))
  | .int value => some (.finite value)
  | .float value => some value
  | _ => Option.none

/-- Whether a value counts as true. -/
def truthy : PyValue → Bool
  | .none => false
  | .bool value => value
  | .int value => value ≠ 0
  | .float value => value ≠ .finite 0
  | .str value => value ≠ ""
  | .list items => !items.isEmpty
  | .dict fields => !fields.isEmpty

/-- The value under a key of a dictionary. -/
def get (key : String) : PyValue → Option PyValue
  | .dict fields => fields.lookup key
  | _ => Option.none

mutual

/-- `==` -/
def equals : PyValue → PyValue → Bool
  | .list a, other => decide (PyValue.list a = other) ||
    match other with
    | .list b => equalsItems a b
    | _ => false
  | .dict a, other => decide (PyValue.dict a = other) ||
    match other with
    | .dict b => a.length == b.length && equalsFields a b
    | _ => false
  | value, other => decide (value = other) ||
    match value.number, other.number with
    | some x, some y => decide (x = y)
    | _, _ => false

def equalsItems : List PyValue → List PyValue → Bool
  | [], [] => true
  | a :: as, b :: bs => equals a b && equalsItems as bs
  | _, _ => false

/-- Each item of the one dictionary has its equal in the other. -/
def equalsFields : List (String × PyValue) → List (String × PyValue) → Bool
  | [], _ => true
  | (key, a) :: rest, other =>
    (match other.lookup key with
      | some b => equals a b
      | Option.none => false) && equalsFields rest other

end

theorem equals_self (value : PyValue) : equals value value = true := by
  cases value <;> simp [equals]

/-- What a subscript raises. -/
inductive SubscriptError where
  | keyError (key : String)
  | typeError
deriving DecidableEq

/-- `value[key]` -/
def subscript (value : PyValue) (key : String) : Except SubscriptError PyValue :=
  match value with
  | .dict fields => orRefuse (fields.lookup key) (.keyError key)
  | _ => .error .typeError

variable {value : PyValue}

def asDict : PyValue → Option (List (String × PyValue))
  | .dict fields => some fields
  | _ => Option.none

def asList : PyValue → Option (List PyValue)
  | .list items => some items
  | _ => Option.none

def asBool : PyValue → Option Bool
  | .bool value => some value
  | _ => Option.none

/-- An integer that is no boolean. -/
def asInt : PyValue → Option ℤ
  | .int value => some value
  | _ => Option.none

def asStr : PyValue → Option String
  | .str value => some value
  | _ => Option.none

@[simp] theorem asInt_eq_some {n : ℤ} : value.asInt = some n ↔ value = .int n := by
  cases value <;> simp [asInt]

end PyValue

end YawnApp.Foundation
