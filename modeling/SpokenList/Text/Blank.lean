import SpokenList.Text.Basic

/-! # Blank characters

White space is the Unicode property of that name.  The characters that separate
words are the white space and the four information separators U+001C to U+001F;
they are called blank.  A zero-width space or a word joiner is neither.

`words` gives the maximal runs of other characters, `strip` takes blanks from
both ends, and `collapse` writes the words with one space between neighbours.
-/
namespace SpokenList.Text

/-- The code points of the white space. -/
def whiteSpaceRanges : Ranges :=
  [(0x9, 0xD), (0x20, 0x20), (0x85, 0x85), (0xA0, 0xA0), (0x1680, 0x1680), (0x2000, 0x200A),
   (0x2028, 0x2029), (0x202F, 0x202F), (0x205F, 0x205F), (0x3000, 0x3000)]

theorem whiteSpaceRanges_ascending : whiteSpaceRanges.ascending = true := by decide

/-- A character of the white space. -/
def isWhiteSpace (c : Char) : Bool := whiteSpaceRanges.has c.toNat

/-- A character that separates words. -/
def isBlank (c : Char) : Bool := isWhiteSpace c || (0x1C ≤ c.toNat && c.toNat ≤ 0x1F)

/-- The blanks of the core library are among them. -/
theorem isBlank_of_isWhitespace {c : Char} (h : c.isWhitespace = true) : isBlank c = true := by
  simp [Char.isWhitespace] at h
  rcases h with ((h | h) | h) | h <;> subst h <;> decide

/-- Takes blanks from both ends. -/
def strip (t : Text) : Text := trim isBlank t

/-- The text has no character besides blanks. -/
def isBlankText (t : Text) : Bool := t.all isBlank

/-- The maximal runs of characters that are not blank, in order. -/
def words (t : Text) : List Text := (t.splitOnP isBlank).filter (!·.isEmpty)

/-- The words of the text with one space between neighbours. -/
def collapse (t : Text) : Text := join [' '] (words t)

/-- Drops leading blanks. -/
def dropBlanks (t : Text) : Text := t.dropWhile isBlank

/-- The text starts with a blank. -/
def startsBlank : Text → Bool
  | [] => false
  | c :: _ => isBlank c

end SpokenList.Text
