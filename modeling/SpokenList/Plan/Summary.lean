import SpokenList.Plan.Basic
import SpokenList.Text.Numeral

/-! # Summaries

The text that is shown to confirm a plan: a heading and one line per entry for
each of the three kinds, in the order in which people read them (add, remove,
adjust), which is not the order in which they are carried out.
-/
namespace SpokenList

/-- What is shown for a plan that asks for nothing. -/
def Plan.nothingActionable : Text := "No actionable items detected."

/-- The sign between a quantity and a name. -/
def multiplySign : Char := '×'

/-- How many of what, and the note in parentheses if there is one. -/
def AddEntry.line (e : AddEntry) : Text :=
  let head := ['-', ' '] ++ Text.ofInt e.quantity ++ [' ', multiplySign, ' '] ++ e.name
  match e.note with
  | some (c :: note) => head ++ [' ', '('] ++ (c :: note) ++ [')']
  | _ => head

/-- The name alone. -/
def RemoveEntry.line (e : RemoveEntry) : Text := ['-', ' '] ++ e.name

/-- The signed change and the name. -/
def AdjustEntry.line (e : AdjustEntry) : Text :=
  ['-', ' '] ++ Text.ofSigned e.delta ++ [' '] ++ e.name

/-- A heading with its lines, or nothing if there are none. -/
def headed (heading : Text) : List Text → List Text
  | [] => []
  | lines => heading :: lines

namespace Plan

/-- The lines of the summary. -/
def summaryLines (p : Plan) : List Text :=
  headed "Add:" (p.add.map AddEntry.line) ++
    headed "Remove:" (p.remove.map RemoveEntry.line) ++
    headed "Adjust:" (p.adjust.map AdjustEntry.line)

/-- The text to confirm. -/
def summary (p : Plan) : Text :=
  if p.isEmpty then nothingActionable else Text.lines p.summaryLines

end Plan
end SpokenList
