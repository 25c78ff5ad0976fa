import SpokenList.Checked
import SpokenList.Json.Shown
import SpokenList.Text.Abridged

/-! # The account of a refused value

What is told at length about the problems of a value, for the journal: how many
there are, and for each of them where it is, what is wrong, what was found
instead, and where to read about it.
-/
namespace SpokenList.Problem

/-- How many problems a value has that was to be of the model. -/
def tally (model : Text) (count : Nat) : Text :=
  Text.ofNat count ++ (if count = 1 then " validation error for " else " validation errors for ") ++
    model

/-- What is wrong, and what was found. -/
def finding (p : Problem) : Text :=
  "  " ++ p.cause.message ++ " [type=" ++ p.cause.code ++ ", input_value=" ++
    Text.abridged p.value.shown ++ ", input_type=" ++ p.value.kind ++ [']']

/-- Where the causes are explained. -/
def manual : Text := "errors.pydantic.dev/2.14/v/"

/-- The lines about one problem; the value itself has no path. -/
def accountLines (p : Problem) : List Text :=
  (if p.path.isEmpty then [] else [p.pathText]) ++
    [p.finding, "    For further information visit https://" ++ manual ++ p.cause.code]

/-- All that is told about the problems. -/
def account (model : Text) (ps : List Problem) : Text :=
  Text.lines (tally model ps.length :: ps.flatMap accountLines)

end SpokenList.Problem
