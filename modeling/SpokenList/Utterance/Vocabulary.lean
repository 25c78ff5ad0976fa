import SpokenList.Text.Basic

/-! # The vocabulary of commands

The words that a spoken command is made of, besides the names of items.  All of
them are in lower case, since a command is read in lower case.
-/
namespace SpokenList.Utterance

/-- The number words and what they stand for. -/
def numberWords : List (Text × Int) :=
  [("one", 1), ("two", 2), ("three", 3), ("four", 4), ("five", 5), ("six", 6), ("seven", 7),
   ("eight", 8), ("nine", 9), ("ten", 10)]

/-- Words that say what a quantity counts; they are passed over right after it. -/
def unitWords : List Text :=
  ["can", "cans", "lb", "lbs", "pound", "pounds", "oz", "ounces", "bag", "bags", "dozen", "pack",
   "packs"]

/-- Words that are passed over anywhere among the items to add. -/
def fillerWords : List Text :=
  ["and", "also", "please", "hey", "can", "you", "to", "the", "a", "an"]

/-- Words that never belong to the name of an item. -/
def stopWords : List Text := ["of", "some"]

/-- Words that join two items of an enumeration. -/
def joiningWords : List Text := ["and", "plus"]

/-- Characters that are taken from both ends of a name. -/
def edgePunctuation : Text := " .,!?;:"

/-- The phrases that open a command to remove. -/
def removalPhrases : List (List Text) := [["remove"], ["delete"], ["drop"], ["take", "off"]]

/-- The verbs that open a command to raise a quantity. -/
def increaseVerbs : List Text := ["increase", "plus"]

/-- The verbs that open a command to lower a quantity. -/
def decreaseVerbs : List Text := ["decrease", "subtract", "minus"]

/-- The phrases that may open a command to add, and say nothing more. -/
def softeners : List (List Text) :=
  [["please", "add"], ["can", "you", "add"], ["i", "need"], ["i", "want"], ["add"], ["put"],
   ["insert"], ["get"]]

/-- The phrases that open a command other than one to add. -/
def commandPhrases : List (List Text) :=
  removalPhrases ++ ([["increase"], ["decrease"], ["subtract"], ["minus"]] : List (List Text))

end SpokenList.Utterance
