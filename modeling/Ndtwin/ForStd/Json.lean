import Mathlib.Algebra.Order.Ring.Int

/-!
# JSON values

A JSON value as a C++ or Python program holds it after parsing: integers are kept apart
by how they were stored (signed, or unsigned for a literal without a sign), and every
other number is a float, of which only the decimal value is kept.
-/

/-- A parsed JSON value. The fields of an object are in the order they are iterated. -/
inductive Json where
  | null
  | bool (b : Bool)
  | int (i : Int)
  | uint (n : Nat)
  | float (mantissa : Int) (exponent : Int)
  | str (s : String)
  | arr (elems : List Json)
  | obj (fields : List (String × Json))
  deriving Repr, Inhabited

namespace Json

/-- The field of an object, if the value is an object that has it. -/
def field? : Json → String → Option Json
  | .obj fields, key => (fields.find? fun f => f.1 = key).map Prod.snd
  | _, _ => none

def isObject : Json → Bool
  | .obj _ => true
  | _ => false

def isArray : Json → Bool
  | .arr _ => true
  | _ => false

theorem field?_of_not_object {j : Json} (h : j.isObject = false) (key : String) :
    j.field? key = none := by
  cases j with
  | obj _ => exact nomatch h
  | _ => rfl

/-- What a range-based loop visits: the elements of an array, the values of an object,
    nothing for null, and the value itself for any other one. -/
def iterate : Json → List Json
  | .arr elems => elems
  | .obj fields => fields.map Prod.snd
  | .null => []
  | v => [v]

/-! ## The accesses of `nlohmann::json` that throw -/

/-- A `nlohmann::json` exception. -/
inductive Error where
  | typeError
  | outOfRange
  deriving DecidableEq, Repr

/-- `j.value(key, "")`: throws for a value that is not an object and for a field that is
    not a string. -/
def valueString (j : Json) (key : String) : Except Error String :=
  match j with
  | .obj _ =>
    match j.field? key with
    | none => .ok ""
    | some (.str s) => .ok s
    | some _ => .error .typeError
  | _ => .error .typeError

/-- `j.at(key)`: throws for a value that is not an object and for a missing field. -/
def atField (j : Json) (key : String) : Except Error Json :=
  match j with
  | .obj _ =>
    match j.field? key with
    | none => .error .outOfRange
    | some v => .ok v
  | _ => .error .typeError

/-- `j.empty()`: a value is empty when it holds no element; a string holds itself. -/
def isEmpty : Json → Bool
  | .null => true
  | .arr elems => elems.isEmpty
  | .obj fields => fields.isEmpty
  | _ => false

/-- `j[0]` on a value that is not empty: throws unless it is an array. -/
def first : Json → Except Error Json
  | .arr (x :: _) => .ok x
  | _ => .error .typeError

end Json
