/-! # Texts

A text is the list of its characters, so its length counts code points and every
function on it is a recursion on a list.  String literals are written where a
text is expected and are coerced.

A class of characters is given by the ranges of code points that belong to it;
`Ranges.has` looks a code point up, and stops at the first range that lies
beyond it.
-/
namespace SpokenList

/-- A text, character by character. -/
abbrev Text := List Char

instance : Coe String Text := ⟨String.toList⟩

/-- Closed ranges of code points, ascending and apart. -/
abbrev Ranges := List (Nat × Nat)

namespace Ranges

/-- Whether a code point lies in one of the ranges. -/
def has : Ranges → Nat → Bool
  | [], _ => false
  | (lo, hi) :: rest, n => if n < lo then false else n ≤ hi || has rest n

/-- The first code point of the range that holds `n`. -/
def start? : Ranges → Nat → Option Nat
  | [], _ => none
  | (lo, hi) :: rest, n => if n < lo then none else if n ≤ hi then some lo else start? rest n

/-- Every range is non-empty and ends before the next one begins. -/
def ascending : Ranges → Bool
  | [] => true
  | [r] => r.1 ≤ r.2
  | r :: s :: rest => r.1 ≤ r.2 && r.2 + 1 < s.1 && ascending (s :: rest)

/-- What a range list accepts lies in one of its ranges. -/
theorem mem_of_has {rs : Ranges} {n : Nat} (h : has rs n = true) :
    ∃ r ∈ rs, r.1 ≤ n ∧ n ≤ r.2 := by
  induction rs with
  | nil => simp [has] at h
  | cons r rest ih =>
    unfold has at h
    split at h
    · simp at h
    · rename_i hlo
      rcases Bool.or_eq_true _ _ |>.mp h with h | h
      · exact ⟨r, by simp, by omega, by simpa using h⟩
      · obtain ⟨s, hs, hn⟩ := ih h
        exact ⟨s, by simp [hs], hn⟩

end Ranges

namespace Text

/-- Drops the characters that satisfy `p` from both ends. -/
def trim (p : Char → Bool) (t : Text) : Text :=
  ((t.dropWhile p).reverse.dropWhile p).reverse

/-- The first `n` characters from either side: a negative bound leaves off that
many at the end. -/
def upTo (bound : Int) (t : Text) : Text :=
  if bound < 0 then t.take (t.length - bound.natAbs) else t.take bound.natAbs

/-- Joins texts with a separator between neighbours. -/
def join (separator : Text) (parts : List Text) : Text :=
  separator.intercalate parts

/-- The texts as the lines of one text. -/
def lines (parts : List Text) : Text := join ['\n'] parts

/-- What follows `w`, if the text starts with it. -/
def after? (w t : Text) : Option Text := w.isPrefixOf? t

/-- ASCII lower case; every other character stays. -/
def lowerAscii (t : Text) : Text :=
  t.map fun c => if 'A' ≤ c ∧ c ≤ 'Z' then Char.ofNat (c.toNat + 32) else c

end Text
end SpokenList
