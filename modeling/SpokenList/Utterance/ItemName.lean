import SpokenList.Text.Blank
import SpokenList.Text.WordCharacter
import SpokenList.Utterance.Vocabulary

/-! # Names of items

What is said about an item becomes its name in three steps: stop words go with
the blanks after them, blanks collapse, and punctuation is taken from the ends.
A stop word counts only as a whole word, between word boundaries.

A note is what stands in the first parentheses; the closing one may be missing.
-/
namespace SpokenList.Utterance

/-- The number of characters of the stop word at the start of the text and the
blanks after it, if one stands there as a whole word. -/
def stopWordLength? (t : Text) : Option Nat :=
  stopWords.findSome? fun w => do
    let rest ← Text.after? w t
    if Text.startsWord rest then none
    else some (w.length + (rest.takeWhile Text.isBlank).length)

/-- Leaves out stop words.  `inWord` tells whether the character before is a word
character, and the first `skip` characters belong to a stop word already read. -/
def withoutStopWordsFrom : (inWord : Bool) → (skip : Nat) → Text → Text
  | _, _, [] => []
  | _, skip + 1, c :: cs => withoutStopWordsFrom (Text.isWordChar c) skip cs
  | inWord, 0, c :: cs =>
    match if inWord then none else stopWordLength? (c :: cs) with
    | some n => withoutStopWordsFrom (Text.isWordChar c) (n - 1) cs
    | none => c :: withoutStopWordsFrom (Text.isWordChar c) 0 cs

/-- The text without its stop words and the blanks after them. -/
def withoutStopWords (t : Text) : Text := withoutStopWordsFrom false 0 t

/-- The name of the item that the text is about. -/
def itemName (t : Text) : Text :=
  Text.trim edgePunctuation.contains (Text.collapse (withoutStopWords t))

/-- A text and the note that stood in it. -/
structure Noted where
  text : Text
  note : Option Text
  deriving DecidableEq, Repr

/-- A text that is not empty. -/
def nonEmpty? (t : Text) : Option Text := if t.isEmpty then none else some t

/-- Takes the first note out of a text; what stands before and after it is kept. -/
def takeNote (t : Text) : Noted :=
  match t.dropWhile (· != '(') with
  | [] => ⟨Text.strip t, none⟩
  | _ :: inside =>
    let before := t.takeWhile (· != '(')
    let after := (inside.dropWhile (· != ')')).drop 1
    ⟨Text.strip (before ++ ' ' :: after), nonEmpty? (Text.strip (inside.takeWhile (· != ')')))⟩

end SpokenList.Utterance
