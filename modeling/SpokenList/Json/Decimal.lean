import SpokenList.Text.Numeral

/-! # Decimal numbers

A number that is written with a point or an exponent stands for the nearest
number of 53 significant bits, a half-way one for its neighbour with the even
significand.  So `1.00000000000000000001` is one, and has no fractional part.

The arithmetic is exact, on quotients of natural numbers.
-/
namespace SpokenList

/-- The number `mantissa * 10 ^ exponent` with its sign, as it was written. -/
structure Decimal where
  negative : Bool
  mantissa : Nat
  exponent : Int
  deriving DecidableEq, Repr

namespace Decimal

/-- The quotient as an integer, a half going to the even neighbour. -/
def nearest (n d : Nat) : Nat :=
  let q := n / d
  let twice := 2 * (n % d)
  if twice < d ∨ (twice = d ∧ q % 2 = 0) then q else q + 1

/-- The quotient times a power of a base. -/
def scaled (base n d : Nat) (power : Int) : Nat × Nat :=
  if 0 ≤ power then (n * base.pow power.toNat, d) else (n, d * base.pow power.natAbs)

/-- The greatest power of two that is not above the quotient, by its exponent. -/
def binaryPlace (n d : Nat) : Int :=
  let place : Int := n.log2 - d.log2
  let (n, d) := scaled 2 n d (-place)
  if d ≤ n then place else place - 1

/-- The nearest number of 53 bits: its significand, which is below `2 ^ 53`, and the
exponent of two. -/
def rounded (n d : Nat) : Nat × Int :=
  let exponent := max (binaryPlace n d - 52) (-1074)
  let (n, d) := scaled 2 n d (-exponent)
  let significand := nearest n d
  if significand = Nat.pow 2 53 then (Nat.pow 2 52, exponent + 1) else (significand, exponent)

/-- How a decimal reads as an integer. -/
inductive Reading where
  /-- The number is an integer of fewer than 64 bits. -/
  | whole (n : Int)
  /-- The number is an integer of 64 bits or more. -/
  | vast
  /-- The number is too large to be held at all. -/
  | infinite
  /-- The number has a fractional part. -/
  | fractional
  deriving DecidableEq, Repr

/-- A natural number with a sign, with those of 64 bits or more set apart. -/
def Reading.ofNat (negative : Bool) (n : Nat) : Reading :=
  if Nat.pow 2 63 ≤ n then .vast else .whole (Text.withSign negative n)

/-- Reads a number of 53 bits. -/
def Reading.ofRounded (negative : Bool) (significand : Nat) (exponent : Int) : Reading :=
  let (n, d) := scaled 2 significand 1 exponent
  if n % d = 0 then .ofNat negative (n / d) else .fractional

/-- What the number is close to, its sign apart. -/
inductive Magnitude where
  | zero
  /-- The nearest number of 53 bits, as a significand and an exponent of two. -/
  | finite (significand : Nat) (exponent : Int)
  /-- The number is too large to be held at all. -/
  | infinite
  deriving DecidableEq, Repr

/-- The nearest number that can be held.  The size is looked at first, so that no
power of ten beyond what can matter is computed. -/
def magnitude (x : Decimal) : Magnitude :=
  let size := (Text.ofNat x.mantissa).length + x.exponent
  if x.mantissa = 0 ∨ size < -330 then .zero
  else if 310 < size then .infinite
  else
    let (n, d) := scaled 10 x.mantissa 1 x.exponent
    let (significand, exponent) := rounded n d
    if significand = 0 then .zero
    else if Nat.pow 2 1024 ≤ significand * Nat.pow 2 exponent.toNat then .infinite
    else .finite significand exponent

/-- The number can be held. -/
def isFinite (x : Decimal) : Bool := x.magnitude != .infinite

/-- Reads a decimal as an integer. -/
def reading (x : Decimal) : Reading :=
  match x.magnitude with
  | .zero => .whole 0
  | .infinite => .infinite
  | .finite significand exponent => .ofRounded x.negative significand exponent

end Decimal
end SpokenList
