import SpokenList.Text.Basic

/-! # Capitals

The capitals of a text, as far as they are ASCII letters.  Besides the ASCII
letters themselves a few others have such capitals: the dotless i, the long s,
the sharp s and the ligatures of f and of s, each of which may stand for several
letters.  Any other character stays.
-/
namespace SpokenList.Text

/-- The letters beyond ASCII whose capitals are ASCII letters. -/
def asciiCapitals : List (Char × Text) :=
  [('ß', "SS"), ('ı', "I"), ('ſ', "S"), ('ﬀ', "FF"), ('ﬁ', "FI"), ('ﬂ', "FL"), ('ﬃ', "FFI"),
   ('ﬄ', "FFL"), ('ﬅ', "ST"), ('ﬆ', "ST")]

/-- The capitals of a character. -/
def capital (c : Char) : Text :=
  if 'a' ≤ c ∧ c ≤ 'z' then [Char.ofNat (c.toNat - 32)] else (asciiCapitals.lookup c).getD [c]

/-- The capitals of a text. -/
def capitals (t : Text) : Text := t.flatMap capital

end SpokenList.Text
