import SpokenList.Json.Decimal

/-! # The shortest digits of a number

Many decimals stand for the same number of 53 bits.  `shortest` picks the one
with the fewest digits, and among those the one nearest to the number.  Of the
numbers with so many digits only the two next to the number have to be tried: if
any of them stands for it, so does one of these two.  Seventeen digits are
always enough.

`shortForm` writes the number with these digits, in places if it is neither very
large nor very small and with an exponent otherwise.
-/
namespace SpokenList.Decimal

/-- The greatest power of ten that is not above the quotient, by its exponent. -/
def decimalPlace (n d : Nat) : Int :=
  let place : Int := (Text.ofNat n).length - (Text.ofNat d).length
  let (n, d) := scaled 10 n d (-place)
  if d ≤ n then place else place - 1

/-- The natural numbers next to the quotient, the nearer one first. -/
def neighbours (n d : Nat) : List Nat :=
  let q := n / d
  if nearest n d = q then [q, q + 1] else [q + 1, q]

/-- A decimal of so many digits that stands for the number, as the digits and the
exponent of ten. -/
def ofLength? (significand : Nat) (exponent : Int) (length : Nat) : Option (Nat × Int) :=
  let (n, d) := scaled 2 significand 1 exponent
  let place := decimalPlace n d - (length - 1)
  let (n, d) := scaled 10 n d (-place)
  let readsBack (digits : Nat) : Bool :=
    let (n, d) := scaled 10 digits 1 place
    rounded n d = (significand, exponent)
  ((neighbours n d).find? readsBack).map (·, place)

/-- The shortest decimal that stands for the number. -/
def shortest (significand : Nat) (exponent : Int) : Nat × Int :=
  ((List.range' 1 17).findSome? (ofLength? significand exponent)).getD (0, 0)

/-- The exponents of ten that are written in places. -/
def inPlaces (power : Int) : Bool := -4 ≤ power && power < 16

/-- Digits with a point after so many of them; at least one digit on either side. -/
def placed (digits : Text) (point : Int) : Text :=
  let padded := List.replicate (-point).toNat '0' ++ digits ++
    List.replicate (point - digits.length).toNat '0'
  let whole := padded.take point.toNat
  let fraction := padded.drop point.toNat
  (if whole.isEmpty then ['0'] else whole) ++ '.' :: (if fraction.isEmpty then ['0'] else fraction)

/-- Digits with a point after the first one, if others follow, and an exponent of at
least two digits. -/
def withExponent (digits : Text) (power : Int) : Text :=
  let size := Text.ofNat power.natAbs
  let fraction := digits.drop 1
  digits.take 1 ++ (if fraction.isEmpty then [] else '.' :: fraction) ++
    ['e', if power < 0 then '-' else '+'] ++ List.replicate (2 - size.length) '0' ++ size

/-- A number of 53 bits with the fewest digits. -/
def Magnitude.shortForm : Magnitude → Text
  | zero => "0.0"
  | infinite => "inf"
  | finite significand exponent =>
    let (number, place) := shortest significand exponent
    let all := Text.ofNat number
    let point := all.length + place
    let digits := (all.reverse.dropWhile (· == '0')).reverse
    if inPlaces (point - 1) then placed digits point else withExponent digits (point - 1)

/-- The number that the decimal stands for, with the fewest digits. -/
def shortForm (x : Decimal) : Text := Text.afterMinus x.negative x.magnitude.shortForm

end SpokenList.Decimal
