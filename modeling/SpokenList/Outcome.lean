import SpokenList.Plan.Wire
import SpokenList.Text.Quoted

/-! # Outcomes

What became of each entry of a plan that was carried out, and what is told about
it.  An entry whose write failed does not stop the others, so a plan can go
through in part.
-/
namespace SpokenList

/-- What became of an entry. -/
inductive Status where
  | applied
  /-- There is no such item on the list, which is no error. -/
  | noMatch
  | failed
  deriving DecidableEq, Repr

namespace Status

/-- All of them. -/
def all : List Status := [applied, noMatch, failed]

/-- The word for it. -/
def name : Status → Text
  | applied => "applied"
  | noMatch => "no_match"
  | failed => "failed"

/-- The status of that name. -/
def ofName? (t : Text) : Option Status := all.find? fun s => s.name == t

/-- What is said of a name that no status has. -/
def unknownName (t : Text) : Text := Text.quoted t ++ " is not a valid EntryStatus"

end Status

/-- An entry, what became of it, and why it failed if it did. -/
structure Outcome where
  entry : Entry
  status : Status
  error : Option Text
  deriving DecidableEq, Repr

/-- The outcomes of a plan in the order in which it was carried out. -/
abbrev Report := List Outcome

namespace Outcome

/-- The operation and the item, in a few words. -/
def describe (o : Outcome) : Text := o.entry.operation.word ++ ' ' :: o.entry.name

/-- The outcome as an object. -/
def toJson (o : Outcome) : Json :=
  .objectOf
    [("operation", .text o.entry.operation.word), ("entry", o.entry.toJson),
     ("status", .text o.status.name), ("error", .ofText? o.error)]

end Outcome

namespace Report

/-- The outcomes with a status. -/
def having (r : Report) (s : Status) : List Outcome := r.filter fun o => o.status == s

/-- The number of outcomes with a status. -/
def count (r : Report) (s : Status) : Nat := (r.having s).length

/-- No write failed. -/
def isOk (r : Report) : Bool := (r.having .failed).isEmpty

/-- Some writes failed and others did not. -/
def isPartial (r : Report) : Bool := !(r.having .failed).isEmpty && !(r.having .applied).isEmpty

/-- The report as an object. -/
def toJson (r : Report) : Json :=
  .objectOf
    [("ok", .bool r.isOk), ("partial", .bool r.isPartial),
     ("outcomes", .list (r.map Outcome.toJson))]

/-- How many items were updated. -/
def updated (r : Report) : Text :=
  let n := r.count .applied
  "Updated " ++ Text.ofNat n ++ if n = 1 then (" item" : Text) else " items"

/-- The opening sentence: what went through. -/
def opening (r : Report) : Text :=
  if r.isOk then r.updated ++ "."
  else if (r.having .applied).isEmpty then "Couldn't update your list."
  else r.updated ++ ", but some changes didn't save."

/-- A sentence that lists something, or nothing if there is nothing to list. -/
def sentence (opening : Text) : List Text → Text
  | [] => []
  | parts => opening ++ Text.join ", " parts ++ "."

/-- What is told once the plan has been carried out. -/
def message (r : Report) : Text :=
  r.opening ++ sentence " Failed: " ((r.having .failed).map Outcome.describe) ++
    sentence " Not on your list: " ((r.having .noMatch).map fun o => o.entry.name)

end Report
end SpokenList
