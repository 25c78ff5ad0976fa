import SpokenList.Journal
import SpokenList.Plan.Basic
import SpokenList.Proposal.Basic

/-! # From a proposal to a plan

The entries of a proposal that a plan can hold become its entries, in the same
order and without merging any; the others are dropped, one by one.  Names and
notes are collapsed, and a blank note is no note.
-/
namespace SpokenList

/-- The text with single spaces between its words, unless there are no words. -/
def Text.collapsed? (t : Text) : Option Text :=
  let c := Text.collapse t
  if c.isEmpty then none else some c

namespace ProposedAdd

/-- How many are proposed: one, if nothing is said. -/
def amount (a : ProposedAdd) : Int := a.quantity.getD 1

/-- The entry for the item, if a plan can hold it. -/
def accepted? (limits : Limits) (a : ProposedAdd) : Option AddEntry := do
  let name ← Text.collapsed? a.name
  if 1 ≤ a.amount ∧ a.amount ≤ limits.quantity then
    some ⟨name, a.amount, a.note.bind Text.collapsed?⟩
  else none

/-- What is noted when the item is dropped. -/
def journal (limits : Limits) (a : ProposedAdd) : List Record :=
  match Text.collapsed? a.name with
  | none => [⟨.debug, .proposals, "Dropping LLM add entry with blank name"⟩]
  | some name =>
    if (a.accepted? limits).isSome then []
    else [⟨.debug, .proposals, "Dropping LLM add entry '" ++ name ++ "' with quantity " ++
      Text.ofInt a.amount⟩]

end ProposedAdd

/-- The entry for the item, unless its name is blank. -/
def ProposedRemove.accepted? (r : ProposedRemove) : Option RemoveEntry :=
  (Text.collapsed? r.name).map RemoveEntry.mk

namespace ProposedAdjust

/-- The entry for the change, if a plan can hold it. -/
def accepted? (limits : Limits) (a : ProposedAdjust) : Option AdjustEntry := do
  let name ← Text.collapsed? a.name
  if a.delta ≠ 0 ∧ a.delta.natAbs ≤ limits.quantity then some ⟨name, a.delta⟩ else none

/-- What is noted when the change is dropped. -/
def journal (limits : Limits) (a : ProposedAdjust) : List Record :=
  if (a.accepted? limits).isSome then []
  else [⟨.debug, .proposals, "Dropping LLM adjust entry LLMAdjustItem(name=" ++
    Text.quoted a.name ++ ", delta=" ++ Text.ofInt a.delta ++ ")"⟩]

end ProposedAdjust

namespace Proposal

/-- The plan that the proposal stands for. -/
def coerce (limits : Limits) (raw : Text) (p : Proposal) : Plan where
  add := p.add.filterMap (ProposedAdd.accepted? limits)
  remove := p.remove.filterMap ProposedRemove.accepted?
  adjust := p.adjust.filterMap (ProposedAdjust.accepted? limits)
  raw := raw

/-- What is noted on the way. -/
def journal (limits : Limits) (p : Proposal) : List Record :=
  p.add.flatMap (ProposedAdd.journal limits) ++ p.adjust.flatMap (ProposedAdjust.journal limits)

/-- Words of a command as they come from outside; a value that counts as nothing
stands for no words. -/
def rawOfJson (v : Json) : Checked Text :=
  Checked.under (.field "raw") (if v.isVoid then .ok [] else Checked.text v)

end Proposal
end SpokenList
