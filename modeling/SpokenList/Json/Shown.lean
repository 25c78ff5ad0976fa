import SpokenList.Json.Shortest
import SpokenList.Json.Basic
import SpokenList.Text.Quoted

/-! # Values as they are shown

A value as a journal record shows it.  Texts are quoted as anywhere in the
journal (`Text.quoted`), and decimals are shown as the number that they stand
for.
-/
namespace SpokenList

/-- What is shown for it. -/
def NonNumber.shown : NonNumber → Text
  | nan => "nan"
  | infinity => "inf"
  | negativeInfinity => "-inf"

namespace Json

mutual

/-- The value as it is shown. -/
def shown : Json → Text
  | null => "None"
  | bool true => "True"
  | bool false => "False"
  | integer n => Text.ofInt n
  | decimal d => d.shortForm
  | nonNumber x => x.shown
  | text t => Text.quoted t
  | list items => '[' :: Text.join ", " (shownItems items) ++ [']']
  | object fields => '\x7b' :: Text.join ", " (shownFields fields) ++ ['\x7d']

/-- Each item as it is shown. -/
def shownItems : List Json → List Text
  | [] => []
  | v :: rest => shown v :: shownItems rest

/-- Each field as it is shown. -/
def shownFields : List (Text × Json) → List Text
  | [] => []
  | (name, v) :: rest => (Text.quoted name ++ ':' :: ' ' :: shown v) :: shownFields rest

end

/-- The word for the kind of the value. -/
def kind : Json → Text
  | null => "NoneType"
  | bool _ => "bool"
  | integer _ => "int"
  | decimal _ => "float"
  | nonNumber _ => "float"
  | text _ => "str"
  | list _ => "list"
  | object _ => "dict"

end Json
end SpokenList
