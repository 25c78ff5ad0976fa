import SpokenList.Text.Numeral

/-! # Field numerals

The numerals that the integer fields of a checked value may have.  They use the
ASCII digits alone.  A *plain* numeral is read as it stands (`readPlain`).  One
that is not plain is tidied first: around the digits some things are let pass,
namely white space on both sides, one plus sign, zeros in front, a point with
nothing but zeros behind it, and single low lines between digits.  `tidy?` takes
these off, in that order.

The zeros in front may have low lines among them, in any number, and the minus
sign may stand behind them as well as before them, but not in both places.  So
`0__4` is four and `0-5` is minus five.

Only of a text that begins like a plain numeral is it told that its digits are
too many; any other text with too many digits is simply no numeral.
-/
namespace SpokenList.Text

/-- A digit other than zero, or a minus sign: what a numeral begins with once the
zeros in front of it are gone. -/
def isNumeralStart (c : Char) : Bool := ('1' ≤ c && c ≤ '9') || c == '-'

/-- Passes over zeros and low lines, and gives the last of them with what follows. -/
def passZeros (last : Char) : Text → Char × Text
  | [] => (last, [])
  | c :: t => if c = '0' ∨ c = '_' then passZeros c t else (last, c :: t)

/-- Takes the zeros in front off.  The last of them stays when nothing follows, or
a point; nothing else than the start of a numeral may follow. -/
def dropZeros? : Text → Option Text
  | [] => none
  | '0' :: t =>
    match passZeros '0' t with
    | (last, []) => some [last]
    | (last, c :: rest) =>
      if c = '.' then some (last :: c :: rest)
      else if isNumeralStart c then some (c :: rest)
      else none
  | c :: t => if isNumeralStart c then some (c :: t) else none

/-- Takes off a point that only zeros follow, at least one. -/
def dropZeroFraction (t : Text) : Text :=
  let (whole, fraction) := t.span (· != '.')
  match fraction with
  | '.' :: '0' :: zeros => if zeros.all (· == '0') then whole else t
  | _ => t

/-- Every low line has some other character on both of its sides. -/
def lowLinesApart : Text → Bool
  | [] => true
  | ['_'] => false
  | '_' :: '_' :: _ => false
  | _ :: t => lowLinesApart t

/-- Takes the low lines out, unless one of them is out of place. -/
def dropLowLines (t : Text) : Text :=
  if t.head? ≠ some '_' ∧ lowLinesApart t then t.filter (· != '_') else t

/-- The numeral without its sign, freed of what is let pass. -/
def tidyDigits? (t : Text) : Option Text :=
  (dropZeros? t).map fun digits => dropLowLines (dropZeroFraction digits)

/-- The numeral freed of what is let pass. -/
def tidy? (t : Text) : Option Text :=
  match trim isWhiteSpace t with
  | '+' :: '-' :: _ => none
  | '+' :: body => tidyDigits? body
  | '-' :: body => (tidyDigits? body).map ('-' :: ·)
  | body => tidyDigits? body

/-- Reads digits that zero does not begin, or a zero alone, after a minus sign or
none.  Their number is looked at before what follows them. -/
def readPlain (t : Text) : Except NumeralError Int :=
  let (negative, body) := match t with
    | '-' :: rest => (true, rest)
    | _ => (false, t)
  let digits := body.takeWhile isAsciiDigit
  if body = ['0'] then .ok 0
  else if digits.isEmpty ∨ body.head? = some '0' then .error (.unreadable t)
  else if digitLimit < digits.length then .error (.tooLong digits.length)
  else if (body.dropWhile isAsciiDigit).isEmpty then .ok (withSign negative (asciiValue digits))
  else .error (.unreadable t)

/-- Reads what is left of a text when it has been tidied. -/
def readTidied (t : Text) : Except NumeralError Int :=
  match (tidy? t).map readPlain with
  | some (.ok n) => .ok n
  | _ => .error (.unreadable t)

/-- The integer that a field numeral stands for. -/
def readField (t : Text) : Except NumeralError Int :=
  match readPlain t with
  | .error (.unreadable _) => readTidied t
  | read => read

end SpokenList.Text
