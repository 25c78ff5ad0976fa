import SpokenList.Text.Numeral
import SpokenList.Text.Printable

/-! # Quoted texts

A text as a journal record shows it: in single quotes, or in double quotes when
it holds a single quote and no double one.  The enclosing quote and the
backslash are escaped, line feed, carriage return and tab have letters, and any
other character that is not printable is given by its code point.
-/
namespace SpokenList.Text

/-- The quote that encloses a text. -/
def enclosingQuote (t : Text) : Char :=
  if t.contains '\'' && !t.contains '"' then '"' else '\''

/-- A code point in the shortest of the three escapes that holds it. -/
def escapeCode (n : Nat) : Text :=
  if n < 0x100 then '\\' :: 'x' :: ofHex 2 n
  else if n < 0x10000 then '\\' :: 'u' :: ofHex 4 n
  else '\\' :: 'U' :: ofHex 8 n

/-- One character inside the given quotes. -/
def escapeChar (quote c : Char) : Text :=
  if c = quote ∨ c = '\\' then ['\\', c]
  else if c = '\n' then ['\\', 'n']
  else if c = '\r' then ['\\', 'r']
  else if c = '\t' then ['\\', 't']
  else if isPrintable c then [c]
  else escapeCode c.toNat

/-- The text in quotes, with what cannot be shown escaped. -/
def quoted (t : Text) : Text :=
  let quote := enclosingQuote t
  quote :: t.flatMap (escapeChar quote) ++ [quote]

end SpokenList.Text
