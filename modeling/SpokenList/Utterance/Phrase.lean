import SpokenList.Text.Blank
import SpokenList.Text.LowerCase
import SpokenList.Text.WordCharacter
import SpokenList.Utterance.Vocabulary

/-! # The normal form of a command, and its opening phrase

A command is read in lower case with single spaces between its words
(`normalize`).  `afterPhrase?` reads one of some phrases at its start; a phrase
ends at a word boundary, so `dropped` does not open with `drop`.
-/
namespace SpokenList.Utterance

/-- The words of the command, one space apart, in lower case. -/
def normalize (t : Text) : Text := Text.lower (Text.collapse t)

/-- What follows the words, which blanks separate, if the text starts with them. -/
def afterWords? : List Text → Text → Option Text
  | [], t => some t
  | [w], t => Text.after? w t
  | w :: ws, t => do
    let rest ← Text.after? w t
    if Text.startsBlank rest then afterWords? ws (Text.dropBlanks rest) else none

/-- What follows a phrase that ends at a word boundary. -/
def afterWhole? (phrase : List Text) (t : Text) : Option Text := do
  let rest ← afterWords? phrase t
  if Text.startsWord rest then none else some rest

/-- What follows the first of the phrases that opens the text. -/
def afterPhrase? (phrases : List (List Text)) (t : Text) : Option Text :=
  phrases.findSome? (afterWhole? · t)

/-- What follows a verb and the blanks after it, of which there is at least one. -/
def afterVerb? (verbs : List Text) (t : Text) : Option Text :=
  verbs.findSome? fun verb => do
    let rest ← Text.after? verb t
    if Text.startsBlank rest then some (Text.dropBlanks rest) else none

/-- The text without the phrase that softens a command to add. -/
def dropSoftener (t : Text) : Text :=
  match afterPhrase? softeners t with
  | some rest => Text.dropBlanks rest
  | none => t

/-- The text opens with a command other than one to add. -/
def opensCommand (t : Text) : Bool := (afterPhrase? commandPhrases t).isSome

end SpokenList.Utterance
