import SpokenList.Text.Basic

/-! # Code units

In UTF-16 a character is one code unit, or two of them if it lies beyond the
first 65536 code points.  Half of such a pair without the other half stands for
no character; where one is met it is replaced.
-/
namespace SpokenList.Text

/-- The first half of a pair of code units. -/
def isLeadingUnit (n : Nat) : Bool := 0xD800 ≤ n && n < 0xDC00

/-- The second half of a pair of code units. -/
def isTrailingUnit (n : Nat) : Bool := 0xDC00 ≤ n && n < 0xE000

/-- The character that stands for half of a pair without the other half. -/
def replacement : Char := '\ufffd'

/-- The character of a single code unit. -/
def ofUnit (n : Nat) : Char :=
  if isLeadingUnit n || isTrailingUnit n then replacement else Char.ofNat n

/-- The character that two code units make together. -/
def ofUnitPair (lead trail : Nat) : Char :=
  Char.ofNat (0x10000 + (lead - 0xD800) * 0x400 + (trail - 0xDC00))

/-- The text that code units stand for. -/
def ofUnits : List Nat → Text
  | [] => []
  | [n] => [ofUnit n]
  | lead :: trail :: rest =>
    if isLeadingUnit lead && isTrailingUnit trail then ofUnitPair lead trail :: ofUnits rest
    else ofUnit lead :: ofUnits (trail :: rest)

/-- The code units of a character. -/
def units (c : Char) : List Nat :=
  let n := c.toNat
  if n < 0x10000 then [n]
  else [0xD800 + (n - 0x10000) / 0x400, 0xDC00 + (n - 0x10000) % 0x400]

end SpokenList.Text
