import SpokenList.Text.Blank
import SpokenList.Utterance.Vocabulary

/-! # Segments

An enumeration is cut at its delimiters: a comma with the blanks around it, or a
joining word with blanks on both sides, which belong to the delimiter.  A blank
is part of one delimiter only, so of two joining words in a row the second one
stays in a segment.  Segments are stripped, and empty ones are left out.
-/
namespace SpokenList.Utterance

/-- The number of characters of the joining word at the start of the text and the
blanks after it, of which there is at least one. -/
def joinerLength? (t : Text) : Option Nat :=
  joiningWords.findSome? fun w => do
    let rest ← Text.after? w t
    if Text.startsBlank rest then some (w.length + (rest.takeWhile Text.isBlank).length) else none

/-- The number of characters of the delimiter at the start of the text, if there
is one. -/
def delimiterLength? (t : Text) : Option Nat :=
  let blanks := (t.takeWhile Text.isBlank).length
  match Text.dropBlanks t with
  | ',' :: rest => some (blanks + 1 + (rest.takeWhile Text.isBlank).length)
  | rest => if Text.startsBlank t then (joinerLength? rest).map (blanks + ·) else none

/-- The pieces between delimiters; the first `skip` characters belong to a
delimiter that has been read already. -/
def pieces : (skip : Nat) → Text → List Text
  | _, [] => [[]]
  | skip + 1, _ :: cs => pieces skip cs
  | 0, c :: cs =>
    match delimiterLength? (c :: cs) with
    | some n => [] :: pieces (n - 1) cs
    | none => (pieces 0 cs).modifyHead (c :: ·)

/-- The segments of an enumeration. -/
def segments (t : Text) : List Text :=
  ((pieces 0 t).map Text.strip).filter (!·.isEmpty)

end SpokenList.Utterance
