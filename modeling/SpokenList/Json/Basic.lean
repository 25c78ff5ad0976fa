import SpokenList.Json.Decimal

/-! # JSON values

The values that travel between the program and the outside.  A number without a
point and without an exponent is an integer of any size; every other number is
a decimal.  Three words stand for numbers that no digits can write.

Of repeated names in an object the last one counts (`field?`); it may take the
place of the first one, and the others go (`distinctFields`).
-/
namespace SpokenList

/-- What stands for a number where there is none. -/
inductive NonNumber where
  | nan
  | infinity
  | negativeInfinity
  deriving DecidableEq, Repr

/-- The word for it. -/
def NonNumber.word : NonNumber → Text
  | nan => "NaN"
  | infinity => "Infinity"
  | negativeInfinity => "-Infinity"

/-- A JSON value. -/
inductive Json where
  | null
  | bool (b : Bool)
  | integer (n : Int)
  | decimal (d : Decimal)
  | nonNumber (x : NonNumber)
  | text (t : Text)
  | list (items : List Json)
  | object (fields : List (Text × Json))

namespace Json

/-- The value of a field, if the object has it. -/
def field? (name : Text) (fields : List (Text × Json)) : Option Json :=
  fields.foldl (fun found f => if f.1 = name then some f.2 else found) none

/-- Gives a field a value: in its place, or at the end if there is no such field. -/
def setField (name : Text) (value : Json) : List (Text × Json) → List (Text × Json)
  | [] => [(name, value)]
  | f :: rest => if f.1 = name then (name, value) :: rest else f :: setField name value rest

/-- Each name once, in the place of its first field and with the value of its last. -/
def distinctFields (fields : List (Text × Json)) : List (Text × Json) :=
  fields.foldl (fun found f => setField f.1 f.2 found) []

/-- A text, or null in its absence. -/
def ofText? : Option Text → Json
  | some t => text t
  | none => null

/-- An object with the fields that are present. -/
def objectOf (fields : List (String × Json)) : Json :=
  object (fields.map fun f => ((f.1 : Text), f.2))

/-- The values that count as nothing: null, false, zero, and whatever is empty. -/
def isVoid : Json → Bool
  | null => true
  | bool b => !b
  | integer n => n == 0
  | decimal d => d.reading == .whole 0
  | nonNumber _ => false
  | text t => t.isEmpty
  | list items => items.isEmpty
  | object fields => fields.isEmpty

mutual

/-- Every number in the value can be held. -/
def isFinite : Json → Bool
  | decimal d => d.isFinite
  | nonNumber _ => false
  | list items => allFinite items
  | object fields => allFieldsFinite fields
  | _ => true

/-- Every number in the items can be held. -/
def allFinite : List Json → Bool
  | [] => true
  | v :: rest => v.isFinite && allFinite rest

/-- Every number in the fields can be held. -/
def allFieldsFinite : List (Text × Json) → Bool
  | [] => true
  | (_, v) :: rest => v.isFinite && allFieldsFinite rest

end

end Json
end SpokenList
