import SpokenList.Json.Basic
import SpokenList.Text.CodeUnit

/-! # Writing JSON

Two layouts.  `compact` writes a value on one line and leaves every character
that may stand for itself as it is.  `indented` writes every item and field on a
line of its own, two spaces deeper than what holds it, in ASCII alone.
-/
namespace SpokenList.Json

/-- A character by its code units. -/
def escapeUnits (c : Char) : Text :=
  (Text.units c).flatMap fun n => '\\' :: 'u' :: Text.ofHex 4 n

/-- The letter after a backslash that stands for a character, for those that have one. -/
def escapeLetter? : Char → Option Char
  | '"' => some '"'
  | '\\' => some '\\'
  | '\n' => some 'n'
  | '\r' => some 'r'
  | '\t' => some 't'
  | '\x08' => some 'b'
  | '\x0c' => some 'f'
  | _ => none

/-- A character inside quotes; `plain` tells which ones stand for themselves. -/
def escape (plain : Char → Bool) (c : Char) : Text :=
  match escapeLetter? c with
  | some letter => ['\\', letter]
  | none => if plain c then [c] else escapeUnits c

/-- A text in quotes. -/
def quote (plain : Char → Bool) (t : Text) : Text :=
  '"' :: t.flatMap (escape plain) ++ ['"']

/-- The characters that compact texts show as they are. -/
def isPlain (c : Char) : Bool := 0x20 ≤ c.toNat

/-- The printable characters of ASCII. -/
def isPlainAscii (c : Char) : Bool := 0x20 ≤ c.toNat && c.toNat < 0x7F

/-- A value that holds no other values, and null for those that do. -/
def scalar (plain : Char → Bool) : Json → Text
  | bool true => "true"
  | bool false => "false"
  | integer n => Text.ofInt n
  | decimal d =>
    Text.afterMinus d.negative (Text.ofNat d.mantissa ++ 'e' :: Text.ofInt d.exponent)
  | nonNumber x => x.word
  | text t => quote plain t
  | _ => "null"

mutual

/-- The value on one line. -/
def compact : Json → Text
  | list items => '[' :: Text.join [','] (compactItems items) ++ [']']
  | object fields => '\x7b' :: Text.join [','] (compactFields fields) ++ ['\x7d']
  | v => scalar isPlain v

/-- Each item on one line. -/
def compactItems : List Json → List Text
  | [] => []
  | v :: rest => compact v :: compactItems rest

/-- Each field on one line. -/
def compactFields : List (Text × Json) → List Text
  | [] => []
  | (name, v) :: rest => (quote isPlain name ++ ':' :: compact v) :: compactFields rest

end

/-- The start of a line at a depth. -/
def newLine (depth : Nat) : Text := '\n' :: List.replicate (2 * depth) ' '

/-- Parts on lines of their own between two brackets; no lines if there are none. -/
def block (depth : Nat) (opening closing : Char) : List Text → Text
  | [] => [opening, closing]
  | parts =>
    opening :: newLine (depth + 1) ++ Text.join (',' :: newLine (depth + 1)) parts ++
      newLine depth ++ [closing]

mutual

/-- The value on lines of its own, below a line at the depth. -/
def indentedAt (depth : Nat) : Json → Text
  | list items => block depth '[' ']' (indentedItems depth items)
  | object fields => block depth '\x7b' '\x7d' (indentedFields depth fields)
  | v => scalar isPlainAscii v

/-- Each item on lines of its own. -/
def indentedItems (depth : Nat) : List Json → List Text
  | [] => []
  | v :: rest => indentedAt (depth + 1) v :: indentedItems depth rest

/-- Each field on lines of its own. -/
def indentedFields (depth : Nat) : List (Text × Json) → List Text
  | [] => []
  | (name, v) :: rest =>
    (quote isPlainAscii name ++ ':' :: ' ' :: indentedAt (depth + 1) v) ::
      indentedFields depth rest

end

/-- The value on lines of its own. -/
def indented (v : Json) : Text := indentedAt 0 v

end SpokenList.Json
