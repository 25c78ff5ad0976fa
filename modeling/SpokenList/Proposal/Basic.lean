import SpokenList.Checked

/-! # Proposals

A proposal is a plan as a language model words it.  It is looser than a plan:
any integer may stand for a quantity or a change, a quantity may be missing, and
names may be blank.  A reply is a proposal with a summary of its own.
-/
namespace SpokenList

/-- An item proposed to be added. -/
structure ProposedAdd where
  name : Text
  quantity : Option Int
  note : Option Text
  deriving DecidableEq, Repr

/-- An item proposed to be removed. -/
structure ProposedRemove where
  name : Text
  deriving DecidableEq, Repr

/-- A proposed change of a quantity. -/
structure ProposedAdjust where
  name : Text
  delta : Int
  deriving DecidableEq, Repr

/-- A plan as a language model words it. -/
structure Proposal where
  add : List ProposedAdd
  remove : List ProposedRemove
  adjust : List ProposedAdjust
  deriving DecidableEq, Repr

/-- What the language model answers. -/
structure Reply where
  summary : Text
  plan : Proposal
  deriving DecidableEq, Repr

namespace ProposedAdd

/-- Reads an item from an object. -/
def ofJson : Json → Checked ProposedAdd :=
  Checked.object .document "LLMAddItem" fun fields =>
    (Checked.both (Checked.required "name" Checked.text fields) <|
      Checked.both (Checked.optional "quantity" none (Checked.orNull Checked.integer) fields)
        (Checked.optional "note" none (Checked.orNull Checked.text) fields)).map
      fun (name, quantity, note) => ⟨name, quantity, note⟩

/-- The item with all its fields, null where there is nothing. -/
def toJson (a : ProposedAdd) : Json :=
  .objectOf
    [("name", .text a.name), ("quantity", (a.quantity.map Json.integer).getD .null),
     ("note", .ofText? a.note)]

end ProposedAdd

namespace ProposedRemove

/-- Reads an item from an object. -/
def ofJson : Json → Checked ProposedRemove :=
  Checked.object .document "LLMRemoveItem" fun fields =>
    (Checked.required "name" Checked.text fields).map ProposedRemove.mk

/-- The item as an object. -/
def toJson (r : ProposedRemove) : Json := .objectOf [("name", .text r.name)]

end ProposedRemove

namespace ProposedAdjust

/-- Reads a change from an object. -/
def ofJson : Json → Checked ProposedAdjust :=
  Checked.object .document "LLMAdjustItem" fun fields =>
    (Checked.both (Checked.required "name" Checked.text fields)
      (Checked.required "delta" Checked.integer fields)).map fun (name, delta) => ⟨name, delta⟩

/-- The change as an object. -/
def toJson (a : ProposedAdjust) : Json :=
  .objectOf [("name", .text a.name), ("delta", .integer a.delta)]

end ProposedAdjust

namespace Proposal

/-- The proposal that asks for nothing. -/
def empty : Proposal := ⟨[], [], []⟩

/-- Reads a proposal from an object, in which any part may be missing. -/
def ofJson : Json → Checked Proposal :=
  Checked.object .document "LLMPlanPayload" fun fields =>
    (Checked.both (Checked.optional "add" [] (Checked.list .notList ProposedAdd.ofJson) fields) <|
      Checked.both
        (Checked.optional "remove" [] (Checked.list .notList ProposedRemove.ofJson) fields)
        (Checked.optional "adjust" [] (Checked.list .notList ProposedAdjust.ofJson) fields)).map
      fun (add, remove, adjust) => ⟨add, remove, adjust⟩

/-- The proposal as an object. -/
def toJson (p : Proposal) : Json :=
  .objectOf
    [("add", .list (p.add.map ProposedAdd.toJson)),
     ("remove", .list (p.remove.map ProposedRemove.toJson)),
     ("adjust", .list (p.adjust.map ProposedAdjust.toJson))]

end Proposal

namespace Reply

/-- The name that a reply has for the language model. -/
def model : Text := "VoicePlanResponse"

/-- Reads a reply from an object, in which any part may be missing. -/
def ofJson : Json → Checked Reply :=
  Checked.object .document model fun fields =>
    (Checked.both (Checked.optional "summary" [] Checked.text fields)
      (Checked.optional "plan" .empty Proposal.ofJson fields)).map fun (summary, plan) =>
        ⟨summary, plan⟩

/-- The reply as an object. -/
def toJson (r : Reply) : Json :=
  .objectOf [("summary", .text r.summary), ("plan", r.plan.toJson)]

end Reply
end SpokenList
