import SpokenList.Json.Basic
import SpokenList.Text.FieldNumeral
import SpokenList.Word

/-! # Checked values

What comes from outside is checked before it becomes a value of the program, and
a check that fails names every problem, not only the first.  A problem has the
path to the offending part, a cause, and the value that was found there; where
something is missing, that is the object that should have it.  Problems come in
the order in which the parts are declared, list items in their own order.

`Checked.both` is where two checks meet: their problems are put one after the
other, and only if neither has any is there a value.
-/
namespace SpokenList

/-- One step from a value to a part of it. -/
inductive Step where
  | field (name : Text)
  | index (i : Nat)
  deriving DecidableEq, Repr

/-- What is wrong with a part of a value. -/
inductive Cause where
  | missing
  | notText
  | emptyText
  | longText (limit : Int)
  | notInteger
  | fractional
  | infinite
  | vastInteger
  | unreadableInteger
  | below (bound : Int)
  | above (bound : Int)
  | zeroDelta
  | notSequence
  | notList
  | notModel (model : Text)
  | notFields
  | notBool
  | unreadableBool
  | malformed
  deriving DecidableEq, Repr

namespace Cause

/-- The word for the kind of problem. -/
def code : Cause → Text
  | missing => "missing"
  | notText => "string_type"
  | emptyText => "string_too_short"
  | longText _ => "string_too_long"
  | notInteger => "int_type"
  | fractional => "int_from_float"
  | infinite => "finite_number"
  | vastInteger => "int_parsing_size"
  | unreadableInteger => "int_parsing"
  | below _ => "greater_than_equal"
  | above _ => "less_than_equal"
  | zeroDelta => "value_error"
  | notSequence => "tuple_type"
  | notList => "list_type"
  | notModel _ => "model_type"
  | notFields => "model_attributes_type"
  | notBool => "bool_type"
  | unreadableBool => "bool_parsing"
  | malformed => "json_invalid"

/-- The sentence that explains the problem. -/
def message : Cause → Text
  | missing => "Field required"
  | notText => "Input should be a valid string"
  | emptyText => "String should have at least 1 character"
  | longText limit => "String should have at most " ++ Text.ofInt limit ++ " characters"
  | notInteger => "Input should be a valid integer"
  | infinite => "Input should be a finite number"
  | fractional => "Input should be a valid integer, got a number with a fractional part"
  | vastInteger => "Unable to parse input string as an integer, exceeded maximum size"
  | unreadableInteger => "Input should be a valid integer, unable to parse string as an integer"
  | below bound => "Input should be greater than or equal to " ++ Text.ofInt bound
  | above bound => "Input should be less than or equal to " ++ Text.ofInt bound
  | zeroDelta => "Value error, delta must not be 0"
  | notSequence => "Input should be a valid tuple"
  | notList => "Input should be a valid list"
  | notModel model => "Input should be a valid dictionary or instance of " ++ model
  | notFields => "Input should be a valid dictionary or object to extract fields from"
  | notBool => "Input should be a valid boolean"
  | unreadableBool => "Input should be a valid boolean, unable to interpret input"
  | malformed => "JSON decode error"

end Cause

/-- A part of a value that is not as it should be. -/
structure Problem where
  path : List Step
  cause : Cause
  /-- The value that was found. -/
  value : Json

/-- The step as it appears in a path. -/
def Step.text : Step → Text
  | field name => name
  | index i => Text.ofNat i

namespace Problem

/-- The problem one step further away. -/
def under (step : Step) (p : Problem) : Problem := { p with path := step :: p.path }

/-- The path in one text. -/
def pathText (p : Problem) : Text := Text.join ['.'] (p.path.map Step.text)

/-- The problem on one line: path, kind and explanation. -/
def line (p : Problem) : Text :=
  p.pathText ++ ": " ++ p.cause.code ++ ": " ++ p.cause.message

/-- All problems, one on each line. -/
def report (ps : List Problem) : Text := Text.lines (ps.map line)

end Problem

/-- A value, or all the problems that stand in its way. -/
abbrev Checked (α : Type) := Except (List Problem) α

namespace Checked

variable {α β : Type}

/-- A single problem with the value itself. -/
def fail (cause : Cause) (v : Json) : Checked α := .error [⟨[], cause, v⟩]

/-- Both values, or the problems of both checks. -/
def both : Checked α → Checked β → Checked (α × β)
  | .ok a, .ok b => .ok (a, b)
  | .ok _, .error qs => .error qs
  | .error ps, .ok _ => .error ps
  | .error ps, .error qs => .error (ps ++ qs)

/-- Puts the problems one step further away. -/
def under (step : Step) : Checked α → Checked α
  | .ok a => .ok a
  | .error ps => .error (ps.map (Problem.under step))

/-- Checks the items of a list, counting from `i`. -/
def eachFrom (check : Json → Checked α) (i : Nat) : List Json → Checked (List α)
  | [] => .ok []
  | v :: rest =>
    (both (under (.index i) (check v)) (eachFrom check (i + 1) rest)).map fun r => r.1 :: r.2

/-! ## Fields of an object -/

/-- A field that has to be there. -/
def required (name : Text) (check : Json → Checked α) (fields : List (Text × Json)) :
    Checked α :=
  under (.field name) <| match Json.field? name fields with
    | some v => check v
    | none => fail .missing (.object fields)

/-- A field that has a default. -/
def optional (name : Text) (default : α) (check : Json → Checked α)
    (fields : List (Text × Json)) : Checked α :=
  under (.field name) <| match Json.field? name fields with
    | some v => check v
    | none => .ok default

/-- How a value came in: as a document of its own, or as the body of a request. -/
inductive Channel where
  | document
  | request
  deriving DecidableEq, Repr

/-- The cause for a value that is no object where one of the model is expected. -/
def Channel.notObject : Channel → Text → Cause
  | document, model => .notModel model
  | request, _ => .notFields

/-- An object, checked by its fields. -/
def object (channel : Channel) (model : Text) (check : List (Text × Json) → Checked α) :
    Json → Checked α
  | .object fields => check fields
  | v => fail (channel.notObject model) v

/-- A list, or the given cause. -/
def list (cause : Cause) (check : Json → Checked α) : Json → Checked (List α)
  | .list items => eachFrom check 0 items
  | v => fail cause v

/-! ## Single values -/

/-- A text. -/
def text : Json → Checked Text
  | .text t => .ok t
  | v => fail .notText v

/-- A text of at least one character. -/
def name (v : Json) : Checked Text :=
  (text v).bind fun t => if t.isEmpty then fail .emptyText v else .ok t

/-- A text of at most so many characters. -/
def textUpTo (limit : Int) (v : Json) : Checked Text :=
  (text v).bind fun t => if limit < t.length then fail (.longText limit) v else .ok t

/-- A value, or null. -/
def orNull (check : Json → Checked α) : Json → Checked (Option α)
  | .null => .ok none
  | v => (check v).map some

/-- An integer from a decimal, or what stands in its way. -/
def wholeOfDecimal (d : Decimal) : Except Cause Int :=
  match d.reading with
  | .whole n => .ok n
  | .vast => .error .vastInteger
  | .infinite => .error .infinite
  | .fractional => .error .fractional

/-- An integer from a numeral, or what stands in its way. -/
def wholeOfNumeral (t : Text) : Except Cause Int :=
  match Text.readField t with
  | .ok n => .ok n
  | .error (.tooLong _) => .error .vastInteger
  | .error (.unreadable _) => .error .unreadableInteger

/-- An integer from a value, or what stands in its way: a number without a
fractional part, a truth value, or a numeral. -/
def wholeOf : Json → Except Cause Int
  | .integer n => .ok n
  | .bool b => .ok (if b then 1 else 0)
  | .decimal d => wholeOfDecimal d
  | .nonNumber _ => .error .infinite
  | .text t => wholeOfNumeral t
  | _ => .error .notInteger

/-- An integer. -/
def integer (v : Json) : Checked Int :=
  match wholeOf v with
  | .ok n => .ok n
  | .error cause => fail cause v

/-- An integer within bounds. -/
def integerWithin (lo hi : Int) (v : Json) : Checked Int :=
  (integer v).bind fun n =>
    if n < lo then fail (.below lo) v else if hi < n then fail (.above hi) v else .ok n

/-- The words for no and for yes, in any case of their ASCII letters. -/
def boolWords : List (Text × Bool) :=
  [("0", false), ("off", false), ("f", false), ("false", false), ("n", false), ("no", false),
   ("1", true), ("on", true), ("t", true), ("true", true), ("y", true), ("yes", true)]

/-- The truth value of an integer, for zero and one. -/
def boolOfInt (n : Int) : Except Cause Bool :=
  if n = 0 then .ok false else if n = 1 then .ok true else .error .unreadableBool

/-- A truth value from a value, or what stands in its way: itself, zero or one, or
a word for it. -/
def boolOf : Json → Except Cause Bool
  | .bool b => .ok b
  | .integer n => if fitsWord n then boolOfInt n else .error .notBool
  | .decimal d => match d.reading with
    | .whole n => boolOfInt n
    | _ => .error .notBool
  | .text t => match boolWords.find? fun w => w.1 == Text.lowerAscii t with
    | some w => .ok w.2
    | none => .error .unreadableBool
  | _ => .error .notBool

/-- A truth value. -/
def bool (v : Json) : Checked Bool :=
  match boolOf v with
  | .ok b => .ok b
  | .error cause => fail cause v

end Checked
end SpokenList
