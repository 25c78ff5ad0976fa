import SpokenList.Limits
import SpokenList.Text.Numeral
import SpokenList.Utterance.Vocabulary

/-! # Quantity tokens

A token says how many if it is a run of ASCII digits for a number from one to
the limit, or a number word.  The length of the run is compared first, so a
number of any length is refused without being computed.
-/
namespace SpokenList.Utterance

/-- The number that a number word stands for. -/
def numberWord? (token : Text) : Option Int :=
  (numberWords.find? fun entry => entry.1 == token).map (·.2)

/-- The number that a run of ASCII digits stands for, if it is from one to the limit. -/
def digitRun? (limits : Limits) (token : Text) : Option Int :=
  let digits := token.dropWhile (· == '0')
  if digits.isEmpty || (Text.ofInt limits.quantity).length < digits.length then none
  else
    let n : Int := Text.asciiValue digits
    if n ≤ limits.quantity then some n else none

/-- The quantity that a token stands for. -/
def quantity? (limits : Limits) (token : Text) : Option Int :=
  if !token.isEmpty && token.all Text.isAsciiDigit then digitRun? limits token
  else numberWord? token

end SpokenList.Utterance
