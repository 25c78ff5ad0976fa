import SpokenList.Text.Blank
import SpokenList.Text.DecimalDigit

/-! # Numerals

Integers are written with the fewest decimal digits, negative ones after a minus
sign.

A *free* numeral is read in many forms: there may be white space around it and
one sign in front, the decimal digits of any script may be used, and single low
lines may stand between digits.  A numeral of more than `digitLimit` digits is
not read, whatever follows its digits.
-/
namespace SpokenList.Text

/-- The decimal digits of a natural number. -/
def ofNat (n : Nat) : Text := Nat.toDigits 10 n

/-- The decimal digits of an integer, after a minus sign if it is negative. -/
def ofInt : Int → Text
  | .ofNat n => ofNat n
  | .negSucc n => '-' :: ofNat (n + 1)

/-- An integer with its sign written out, except for zero. -/
def ofSigned (i : Int) : Text := if 0 < i then '+' :: ofInt i else ofInt i

/-- Hexadecimal digits in lower case, padded with zeros to a width. -/
def ofHex (width n : Nat) : Text :=
  let digits := Nat.toDigits 16 n
  List.replicate (width - digits.length) '0' ++ digits

/-- The value of a hexadecimal digit. -/
def hexDigit? (c : Char) : Option Nat :=
  if '0' ≤ c ∧ c ≤ '9' then some (c.toNat - '0'.toNat)
  else if 'a' ≤ c ∧ c ≤ 'f' then some (c.toNat - 'a'.toNat + 10)
  else if 'A' ≤ c ∧ c ≤ 'F' then some (c.toNat - 'A'.toNat + 10)
  else none

/-- The number that a run of ASCII digits stands for. -/
def asciiValue (digits : Text) : Nat := Nat.ofDigitChars 10 digits 0

/-- The digits of a numeral in which single low lines may stand between digits. -/
def groupedDigits? : Text → Option (List Nat)
  | [] => none
  | [c] => (digitValue? c).map ([·])
  | c :: '_' :: rest => do
    let d ← digitValue? c
    let ds ← groupedDigits? rest
    return d :: ds
  | c :: rest => do
    let d ← digitValue? c
    let ds ← groupedDigits? rest
    return d :: ds

/-- The number written by a list of digits, the highest first. -/
def digitsValue (ds : List Nat) : Nat := ds.foldl (fun n d => 10 * n + d) 0

/-- Takes one sign off; true stands for a minus. -/
def takeSign : Text → Bool × Text
  | '-' :: t => (true, t)
  | '+' :: t => (false, t)
  | t => (false, t)

/-- A text after a minus sign, if there is to be one. -/
def afterMinus (negative : Bool) (t : Text) : Text := if negative then '-' :: t else t

/-- Gives a natural number a sign. -/
def withSign (negative : Bool) (n : Nat) : Int := if negative then -n else n

/-- How many digits a numeral may have. -/
def digitLimit : Nat := 4300

/-- Why a text is no integer. -/
inductive NumeralError where
  /-- The text is no numeral. -/
  | unreadable (t : Text)
  /-- It begins with more digits than are read. -/
  | tooLong (digits : Nat)
  deriving DecidableEq, Repr

/-- A character that a free numeral may have after its sign. -/
def isNumeralPart (c : Char) : Bool := c == '_' || isDecimalDigit c

/-- Reads an integer from a free numeral. -/
def readInteger (t : Text) : Except NumeralError Int :=
  let (negative, body) := takeSign (trim isWhiteSpace t)
  match groupedDigits? (body.takeWhile isNumeralPart) with
  | none => .error (.unreadable t)
  | some digits =>
    if digitLimit < digits.length then .error (.tooLong digits.length)
    else if (body.dropWhile isNumeralPart).isEmpty then
      .ok (withSign negative (digitsValue digits))
    else .error (.unreadable t)

end SpokenList.Text
