import SpokenList.Checked
import SpokenList.Plan.Basic

/-! # Plans on the wire

A plan travels as an object with its three lists of entries and the words of the
command.  A note that is absent is left out.  `Plan.ofJson` reads a plan back
and checks every entry against the limits; fields it does not know are passed
over, and the parts of a plan may be missing.
-/
namespace SpokenList

namespace AddEntry

/-- The entry on the wire. -/
def toJson (e : AddEntry) : Json :=
  .objectOf <| [("name", .text e.name), ("quantity", .integer e.quantity)] ++
    match e.note with
    | some note => [("note", .text note)]
    | none => []

/-- Reads the entry from an object. -/
def ofJson (limits : Limits) (channel : Checked.Channel) : Json → Checked AddEntry :=
  Checked.object channel "AddEntry" fun fields =>
    (Checked.both (Checked.required "name" Checked.name fields) <|
      Checked.both
        (Checked.optional "quantity" 1 (Checked.integerWithin 1 limits.quantity) fields)
        (Checked.optional "note" none (Checked.orNull Checked.text) fields)).map
      fun (name, quantity, note) => ⟨name, quantity, note⟩

end AddEntry

namespace RemoveEntry

/-- The entry on the wire. -/
def toJson (e : RemoveEntry) : Json := .objectOf [("name", .text e.name)]

/-- Reads the entry from an object. -/
def ofJson (channel : Checked.Channel) : Json → Checked RemoveEntry :=
  Checked.object channel "RemoveEntry" fun fields =>
    (Checked.required "name" Checked.name fields).map RemoveEntry.mk

end RemoveEntry

namespace AdjustEntry

/-- The entry on the wire. -/
def toJson (e : AdjustEntry) : Json :=
  .objectOf [("name", .text e.name), ("delta", .integer e.delta)]

/-- A change within the bounds, and not zero. -/
def deltaOfJson (limits : Limits) (v : Json) : Checked Int :=
  (Checked.integerWithin (-limits.quantity) limits.quantity v).bind fun n =>
    if n = 0 then Checked.fail .zeroDelta v else .ok n

/-- Reads the entry from an object. -/
def ofJson (limits : Limits) (channel : Checked.Channel) : Json → Checked AdjustEntry :=
  Checked.object channel "AdjustEntry" fun fields =>
    (Checked.both (Checked.required "name" Checked.name fields)
      (Checked.required "delta" (deltaOfJson limits) fields)).map fun (name, delta) =>
        ⟨name, delta⟩

end AdjustEntry

namespace Entry

/-- The entry on the wire. -/
def toJson : Entry → Json
  | adjust e => e.toJson
  | remove e => e.toJson
  | add e => e.toJson

/-- Reads an entry for an operation. -/
def ofJson (limits : Limits) (channel : Checked.Channel) : Operation → Json → Checked Entry
  | .adjust, v => (AdjustEntry.ofJson limits channel v).map .adjust
  | .remove, v => (RemoveEntry.ofJson channel v).map .remove
  | .add, v => (AddEntry.ofJson limits channel v).map .add

end Entry

namespace Plan

/-- The plan on the wire. -/
def toJson (p : Plan) : Json :=
  .objectOf
    [("add", .list (p.add.map AddEntry.toJson)), ("remove", .list (p.remove.map RemoveEntry.toJson)),
     ("adjust", .list (p.adjust.map AdjustEntry.toJson)), ("raw", .text p.raw)]

/-- Reads a plan from an object. -/
def ofJson (limits : Limits) (channel : Checked.Channel) : Json → Checked Plan :=
  Checked.object channel "Plan" fun fields =>
    (Checked.both
      (Checked.optional "add" [] (Checked.list .notSequence (AddEntry.ofJson limits channel)) fields)
      <| Checked.both
        (Checked.optional "remove" [] (Checked.list .notSequence (RemoveEntry.ofJson channel)) fields)
        <| Checked.both
          (Checked.optional "adjust" []
            (Checked.list .notSequence (AdjustEntry.ofJson limits channel)) fields)
          (Checked.optional "raw" [] Checked.text fields)).map
      fun (add, remove, adjust, raw) => ⟨add, remove, adjust, raw⟩

/-- The plan is read back from the wire as it was. -/
def survivesWire (limits : Limits) (p : Plan) : Bool :=
  match ofJson limits .document p.toJson with
  | .ok q => q = p
  | .error _ => false

end Plan
end SpokenList
