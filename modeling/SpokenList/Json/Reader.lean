import SpokenList.Json.Basic
import SpokenList.Text.CodeUnit

/-! # Reading JSON

`Json.read` reads a text that holds one value, with blanks around it.  When it
cannot, it says how many characters it had read before the offending one: a
misplaced character, the opening quote of a text that is not closed, or the end
of the input.

How long an integer may be and how deep lists and objects may lie in one another
is bounded.  Whichever of a misplaced character and a crossed bound comes first
in the text is the one that stops the reading.  An object is read with each name
once.

Every step of the readers below gives back the text that is still to be read; on
failure that text starts at the offending character.
-/
namespace SpokenList.Json

/-- What is read at most. -/
structure Bounds where
  /-- How many lists and objects may lie in one another. -/
  depth : Nat
  /-- How many digits an integer may have. -/
  digits : Nat
  deriving DecidableEq, Repr

/-- Why reading stopped. -/
inductive Stop where
  /-- The text cannot go on as it does here. -/
  | misplaced (rest : Text)
  /-- A bound was crossed. -/
  | excessive
  deriving DecidableEq, Repr

/-- What a reader found and the text after it, or why it stopped. -/
abbrev Reads (α : Type) := Except Stop (α × Text)

/-- The text cannot go on like this. -/
def misplaced {α : Type} (rest : Text) : Reads α := .error (.misplaced rest)

/-- The characters that may stand between tokens. -/
def isGap (c : Char) : Bool := c == ' ' || c == '\t' || c == '\n' || c == '\r'

/-- Passes over a gap. -/
def skipGap (t : Text) : Text := t.dropWhile isGap

/-! ## Texts -/

/-- The code unit written with four hexadecimal digits. -/
def codeUnit? (a b c d : Char) : Option Nat := do
  let a ← Text.hexDigit? a
  let b ← Text.hexDigit? b
  let c ← Text.hexDigit? c
  let d ← Text.hexDigit? d
  return ((a * 16 + b) * 16 + c) * 16 + d

/-- The character that a letter after a backslash stands for. -/
def unescape? : Char → Option Char
  | '"' => some '"'
  | '\\' => some '\\'
  | '/' => some '/'
  | 'b' => some '\x08'
  | 'f' => some '\x0c'
  | 'n' => some '\n'
  | 'r' => some '\r'
  | 't' => some '\t'
  | _ => none

/-- Puts a half that is still waiting for its other half in front. -/
def settle : Option Nat → Text → Text
  | some _, t => Text.replacement :: t
  | none, t => t

/-- Adds characters in front of a text that has been read. -/
def inFront (cs : Text) : Reads Text → Reads Text
  | .ok (t, rest) => .ok (cs ++ t, rest)
  | .error stop => .error stop

/-- The characters up to the closing quote.  `whole` is the text from the opening
quote on, and `lead` the first half of a pair whose second half is awaited. -/
def readChars (whole : Text) : (lead : Option Nat) → Text → Reads Text
  | _, [] => misplaced whole
  | lead, '"' :: rest => .ok (settle lead [], rest)
  | _, ['\\'] => misplaced whole
  | lead, '\\' :: 'u' :: a :: b :: c :: d :: e :: rest =>
    match codeUnit? a b c d with
    | none => misplaced ('u' :: a :: b :: c :: d :: e :: rest)
    | some n =>
      if Text.isLeadingUnit n then inFront (settle lead []) (readChars whole (some n) (e :: rest))
      else match lead with
        | some l =>
          if Text.isTrailingUnit n then
            inFront [Text.ofUnitPair l n] (readChars whole none (e :: rest))
          else inFront [Text.replacement, Text.ofUnit n] (readChars whole none (e :: rest))
        | none => inFront [Text.ofUnit n] (readChars whole none (e :: rest))
  | lead, '\\' :: c :: rest =>
    if c = 'u' then misplaced (c :: rest)
    else match unescape? c with
      | none => misplaced ('\\' :: c :: rest)
      | some x => inFront (settle lead [x]) (readChars whole none rest)
  | lead, c :: rest =>
    if c.toNat < 0x20 then misplaced (c :: rest)
    else inFront (settle lead [c]) (readChars whole none rest)

/-! ## Numbers -/

/-- A fraction and the text after it, if a point and a digit come next. -/
def readFraction (t : Text) : Text × Text :=
  match t with
  | '.' :: rest =>
    let digits := rest.takeWhile Text.isAsciiDigit
    if digits.isEmpty then ([], t) else (digits, rest.dropWhile Text.isAsciiDigit)
  | _ => ([], t)

/-- An exponent and the text after it, if a complete one comes next. -/
def readExponent (t : Text) : Option Int × Text :=
  match t with
  | c :: rest =>
    if c = 'e' ∨ c = 'E' then
      let (negative, body) := Text.takeSign rest
      let digits := body.takeWhile Text.isAsciiDigit
      if digits.isEmpty then (none, t)
      else (some (Text.withSign negative (Text.asciiValue digits)),
        body.dropWhile Text.isAsciiDigit)
    else (none, t)
  | [] => (none, t)

/-- The digits of a whole number: a zero alone, or digits that do not start with one. -/
def readWhole (t : Text) : Option (Text × Text) :=
  match t with
  | '0' :: rest => some (['0'], rest)
  | c :: _ =>
    if Text.isAsciiDigit c then
      some (t.takeWhile Text.isAsciiDigit, t.dropWhile Text.isAsciiDigit)
    else none
  | [] => none

/-- A number; digits without a point and without an exponent are an integer. -/
def readNumber (bounds : Bounds) (t : Text) : Reads Json :=
  let (negative, body) := match t with
    | '-' :: rest => (true, rest)
    | _ => (false, t)
  match readWhole body with
  | none => misplaced t
  | some (whole, rest) =>
    let (fraction, rest) := readFraction rest
    let (exponent, rest) := readExponent rest
    let mantissa := Text.asciiValue (whole ++ fraction)
    if fraction.isEmpty ∧ exponent.isNone then
      if bounds.digits < whole.length then .error .excessive
      else .ok (.integer (Text.withSign negative mantissa), rest)
    else .ok (.decimal ⟨negative, mantissa, exponent.getD 0 - fraction.length⟩, rest)

/-! ## Values -/

/-- The words that are values. -/
def literals : List (Text × Json) :=
  [("null", null), ("true", bool true), ("false", bool false), (NonNumber.nan.word, nonNumber .nan),
   (NonNumber.infinity.word, nonNumber .infinity),
   (NonNumber.negativeInfinity.word, nonNumber .negativeInfinity)]

/-- A literal or a number. -/
def readScalar (bounds : Bounds) (t : Text) : Reads Json :=
  match literals.findSome? fun l => (Text.after? l.1 t).map ((l.2, ·)) with
  | some found => .ok found
  | none => readNumber bounds t

/-- A text in quotes. -/
def readQuoted : Text → Reads Text
  | '"' :: rest => readChars ('"' :: rest) none rest
  | t => misplaced t

mutual

/-- One value, at a place where no more than `bounds.depth` lists and objects may
lie in one another; the fuel is spent by one at every value and every field. -/
def readValue : (fuel : Nat) → Bounds → Text → Reads Json
  | 0, _, t => misplaced t
  | _ + 1, _, [] => misplaced []
  | fuel + 1, bounds, c :: cs =>
    if c = '"' then (readQuoted (c :: cs)).map fun r => (.text r.1, r.2)
    else if c = '[' ∨ c = '\x7b' then
      match bounds.depth with
      | 0 => .error .excessive
      | depth + 1 =>
        let inner := { bounds with depth := depth }
        match c, skipGap cs with
        | '[', ']' :: rest => .ok (.list [], rest)
        | '[', t => (readItems fuel inner t).map fun r => (.list r.1, r.2)
        | _, '\x7d' :: rest => .ok (.object [], rest)
        | _, t => (readFields fuel inner t).map fun r => (.object (distinctFields r.1), r.2)
    else readScalar bounds (c :: cs)

/-- The items of a list from the next one on, and the closing bracket. -/
def readItems : (fuel : Nat) → Bounds → Text → Except Stop (List Json × Text)
  | 0, _, t => misplaced t
  | fuel + 1, bounds, t => do
    let (item, rest) ← readValue fuel bounds t
    match skipGap rest with
    | ']' :: rest => return ([item], rest)
    | ',' :: rest =>
      let (items, rest) ← readItems fuel bounds (skipGap rest)
      return (item :: items, rest)
    | rest => misplaced rest

/-- The fields of an object from the next name on, and the closing brace. -/
def readFields : (fuel : Nat) → Bounds → Text → Except Stop (List (Text × Json) × Text)
  | 0, _, t => misplaced t
  | fuel + 1, bounds, t => do
    let (name, rest) ← readQuoted t
    match skipGap rest with
    | ':' :: rest =>
      let (value, rest) ← readValue fuel bounds (skipGap rest)
      match skipGap rest with
      | '\x7d' :: rest => return ([(name, value)], rest)
      | ',' :: rest =>
        let (fields, rest) ← readFields fuel bounds (skipGap rest)
        return ((name, value) :: fields, rest)
      | rest => misplaced rest
    | rest => misplaced rest

end

/-- Why a text was not read. -/
inductive ReadError where
  /-- The text holds no value; so many characters were in order. -/
  | malformed (position : Nat)
  /-- The value in the text is beyond the bounds. -/
  | excessive
  deriving DecidableEq, Repr

/-- The error, with the place in the whole text where reading stopped. -/
def Stop.toError (whole : Text) : Stop → ReadError
  | misplaced rest => .malformed (whole.length - rest.length)
  | excessive => .excessive

/-- Reads the value that the text holds, or tells why it is not read. -/
def read (bounds : Bounds) (t : Text) : Except ReadError Json :=
  match readValue (2 * t.length + 1) bounds (skipGap t) with
  | .error stop => .error (stop.toError t)
  | .ok (value, rest) =>
    match skipGap rest with
    | [] => .ok value
    | rest => .error (Stop.toError t (.misplaced rest))

end SpokenList.Json
