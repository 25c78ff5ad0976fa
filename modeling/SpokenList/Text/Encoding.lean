import SpokenList.Text.CodeUnit

/-! # Encodings

A text arrives as bytes.  They are in UTF-8, unless zeros among the first four
of them show that every character takes two bytes or four: the texts that are
read so begin with characters of ASCII, which leave the other bytes zero.
-/
namespace SpokenList

/-- Which byte of several comes first. -/
inductive ByteOrder where
  | highFirst
  | lowFirst
  deriving DecidableEq, Repr

/-- The number that bytes make together. -/
def ByteOrder.number : ByteOrder → List Nat → Nat
  | highFirst, bytes => bytes.foldl (fun n b => 256 * n + b) 0
  | lowFirst, bytes => bytes.foldr (fun b n => 256 * n + b) 0

/-- How a text is written in bytes. -/
inductive Encoding where
  | utf8
  | utf16 (order : ByteOrder)
  | utf32 (order : ByteOrder)
  deriving DecidableEq, Repr

namespace Encoding

/-- The encoding that the first bytes show. -/
def ofBytes : List Nat → Encoding
  | 0 :: 0 :: _ :: _ :: _ => utf32 .highFirst
  | 0 :: _ :: _ :: _ :: _ => utf16 .highFirst
  | _ :: 0 :: 0 :: 0 :: _ => utf32 .lowFirst
  | _ :: 0 :: _ :: _ :: _ => utf16 .lowFirst
  | [0, _] => utf16 .highFirst
  | [_, 0] => utf16 .lowFirst
  | _ => utf8

end Encoding

namespace Text

/-- The bytes of a text in UTF-8. -/
def bytes (t : Text) : List Nat := t.flatMap fun c => (String.utf8EncodeChar c).map UInt8.toNat

/-- Bytes two by two, if none is left over. -/
def byTwo? (order : ByteOrder) : List Nat → Option (List Nat)
  | [] => some []
  | a :: b :: rest => (byTwo? order rest).map (order.number [a, b] :: ·)
  | _ => none

/-- Bytes four by four, if none is left over. -/
def byFour? (order : ByteOrder) : List Nat → Option (List Nat)
  | [] => some []
  | a :: b :: c :: d :: rest => (byFour? order rest).map (order.number [a, b, c, d] :: ·)
  | _ => none

/-- The character at a code point, if there is such a code point. -/
def ofCodePoint? (n : Nat) : Option Char :=
  if n < 0x10000 then some (ofUnit n) else if n < 0x110000 then some (Char.ofNat n) else none

/-- Takes off the mark that a text in UTF-8 may begin with. -/
def dropMark : Text → Text
  | '\ufeff' :: t => t
  | t => t

/-- The text that is read from the bytes of a text, unless they are no text in the
encoding that they show. -/
def received? (t : Text) : Option Text :=
  match Encoding.ofBytes t.bytes with
  | .utf8 => some (dropMark t)
  | .utf16 order => (byTwo? order t.bytes).map ofUnits
  | .utf32 order => (byFour? order t.bytes).bind fun ns => ns.mapM ofCodePoint?

end Text
end SpokenList
