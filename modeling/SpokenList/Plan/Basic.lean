import SpokenList.Limits
import SpokenList.Text.Basic

/-! # Plans

A plan is what a command asks of the grocery list, before anything is written:
items to add, items to remove, and changes of quantity, each in the order in
which they were mentioned.  `Plan.entries` puts them into the one order in which
they are carried out: adjustments, then removals, then additions.
-/
namespace SpokenList

/-- Put an item on the list, or raise its quantity if it is there already. -/
structure AddEntry where
  name : Text
  quantity : Int
  note : Option Text
  deriving DecidableEq, Repr

/-- Take an item off the list. -/
structure RemoveEntry where
  name : Text
  deriving DecidableEq, Repr

/-- Change the quantity of an item that is on the list. -/
structure AdjustEntry where
  name : Text
  delta : Int
  deriving DecidableEq, Repr

/-- What the command asks, and the words it was given in. -/
structure Plan where
  add : List AddEntry
  remove : List RemoveEntry
  adjust : List AdjustEntry
  raw : Text
  deriving DecidableEq, Repr

/-- One entry of a plan, of any of the three kinds. -/
inductive Entry where
  | adjust (entry : AdjustEntry)
  | remove (entry : RemoveEntry)
  | add (entry : AddEntry)
  deriving DecidableEq, Repr

/-- The three things that an entry can ask for. -/
inductive Operation where
  | adjust
  | remove
  | add
  deriving DecidableEq, Repr

namespace Operation

/-- The word for the operation. -/
def word : Operation → Text
  | adjust => "adjust"
  | remove => "remove"
  | add => "add"

end Operation

namespace Entry

/-- The item that the entry is about. -/
def name : Entry → Text
  | adjust e => e.name
  | remove e => e.name
  | add e => e.name

/-- What the entry asks for. -/
def operation : Entry → Operation
  | adjust _ => .adjust
  | remove _ => .remove
  | add _ => .add

end Entry

namespace AddEntry

/-- A named entry whose quantity is within the bounds. -/
def Admissible (limits : Limits) (e : AddEntry) : Prop :=
  e.name ≠ [] ∧ 1 ≤ e.quantity ∧ e.quantity ≤ limits.quantity

instance (limits : Limits) (e : AddEntry) : Decidable (e.Admissible limits) :=
  inferInstanceAs (Decidable (_ ∧ _ ∧ _))

end AddEntry

namespace RemoveEntry

/-- A named entry. -/
def Admissible (e : RemoveEntry) : Prop := e.name ≠ []

instance (e : RemoveEntry) : Decidable e.Admissible := inferInstanceAs (Decidable (_ ≠ _))

end RemoveEntry

namespace AdjustEntry

/-- A named entry whose change is within the bounds and not zero. -/
def Admissible (limits : Limits) (e : AdjustEntry) : Prop :=
  e.name ≠ [] ∧ -limits.quantity ≤ e.delta ∧ e.delta ≤ limits.quantity ∧ e.delta ≠ 0

instance (limits : Limits) (e : AdjustEntry) : Decidable (e.Admissible limits) :=
  inferInstanceAs (Decidable (_ ∧ _ ∧ _ ∧ _))

end AdjustEntry

namespace Plan

/-- The plan that asks for nothing. -/
def empty (raw : Text) : Plan := ⟨[], [], [], raw⟩

/-- The plan asks for nothing. -/
def isEmpty (p : Plan) : Bool := p.add.isEmpty && p.remove.isEmpty && p.adjust.isEmpty

/-- The number of entries. -/
def entryCount (p : Plan) : Nat := p.add.length + p.remove.length + p.adjust.length

/-- The entries in the order in which they are carried out. -/
def entries (p : Plan) : List Entry :=
  p.adjust.map .adjust ++ p.remove.map .remove ++ p.add.map .add

/-- Every entry is within the bounds. -/
def Admissible (limits : Limits) (p : Plan) : Prop :=
  (∀ e ∈ p.add, e.Admissible limits) ∧ (∀ e ∈ p.remove, e.Admissible) ∧
    ∀ e ∈ p.adjust, e.Admissible limits

instance (limits : Limits) (p : Plan) : Decidable (p.Admissible limits) :=
  inferInstanceAs (Decidable (_ ∧ _ ∧ _))

/-- What is said of a plan that asks for nothing. -/
def nothingDetected : Text := "No items were detected in your voice input."

/-- Why the plan is not worth confirming, if it is not. -/
def objection? (p : Plan) : Option Text :=
  if p.isEmpty then some nothingDetected else none

theorem length_entries (p : Plan) : p.entries.length = p.entryCount := by
  simp [entries, entryCount]
  omega

end Plan
end SpokenList
