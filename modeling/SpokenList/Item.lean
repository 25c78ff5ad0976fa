import SpokenList.Text.Blank
import SpokenList.Text.LowerCase

/-! # Items of a grocery list

A row of the list.  Names match when their match keys are equal, that is, up to
case and the blanks around them; of several rows that match, the first one
counts.

`arrange` puts rows into the order of a key.  Rows that the key does not tell
apart keep the order they had.
-/
namespace SpokenList

/-- One row of a grocery list. -/
structure Item where
  id : Int
  name : Text
  quantity : Int
  note : Option Text
  /-- The place of the row among the others when the list is shown. -/
  order : Int
  deriving DecidableEq, Repr

/-- What two names have in common that mean the same item. -/
def Text.matchKey (name : Text) : Text := Text.lower (Text.strip name)

namespace Item

/-- The match key of the row. -/
def key (i : Item) : Text := Text.matchKey i.name

/-- The row is the one that a name means. -/
def isNamed (name : Text) (i : Item) : Bool := i.key == Text.matchKey name

/-- The row with its quantity changed. -/
def adjusted (delta : Int) (i : Item) : Item := { i with quantity := i.quantity + delta }

/-- A note that says something, else the note before it. -/
def newerNote (note before : Option Text) : Option Text :=
  match note with
  | some (c :: cs) => some (c :: cs)
  | _ => before

/-- The row with more of the item added to it. -/
def increased (quantity : Int) (note : Option Text) (i : Item) : Item :=
  { i with quantity := i.quantity + quantity, note := newerNote note i.note }

/-! ## Rows of a list -/

/-- The first row that a name means. -/
def find? (rows : List Item) (name : Text) : Option Item := rows.find? (isNamed name)

/-- The position of the first row that a name means. -/
def findIndex? (rows : List Item) (name : Text) : Option Nat := rows.findIdx? (isNamed name)

/-- Changes the first row that satisfies `p`. -/
def modifyFirst (p : Item → Bool) (f : Item → Item) : List Item → List Item
  | [] => []
  | i :: rest => if p i then f i :: rest else i :: modifyFirst p f rest

/-- The number after the largest one, or the given one if there is none. -/
def numberAfter (first : Int) (numbers : List Int) : Int :=
  match numbers.max? with
  | some n => n + 1
  | none => first

/-- The place of a row that goes to the end of the list. -/
def nextOrder (rows : List Item) : Int := numberAfter 0 (rows.map order)

/-- The number of a row that is new to the list. -/
def nextId (rows : List Item) : Int := numberAfter 1 (rows.map id)

/-! ## Display order -/

/-- Puts a row before the first one that it is not to follow. -/
def place (before : Item → Item → Bool) (i : Item) : List Item → List Item
  | [] => [i]
  | j :: rest => if before i j then i :: j :: rest else j :: place before i rest

/-- The rows in the order that `before` says, where it holds of rows in either
order they stay as they were. -/
def arrange (before : Item → Item → Bool) (rows : List Item) : List Item :=
  rows.foldr (place before) []

/-- The place of `i` does not come after that of `j`. -/
def byOrder (i j : Item) : Bool := i.order ≤ j.order

/-- The place of `i` comes first, or is the same and its number is not larger. -/
def byOrderThenId (i j : Item) : Bool :=
  i.order < j.order || (i.order == j.order && i.id ≤ j.id)

theorem length_place (before : Item → Item → Bool) (i : Item) (rows : List Item) :
    (place before i rows).length = rows.length + 1 := by
  induction rows with
  | nil => rfl
  | cons j rest ih => by_cases h : before i j <;> simp [place, h, ih]

theorem length_arrange (before : Item → Item → Bool) (rows : List Item) :
    (arrange before rows).length = rows.length := by
  induction rows with
  | nil => rfl
  | cons i rest ih =>
    show (place before i (arrange before rest)).length = rest.length + 1
    rw [length_place, ih]

end Item
end SpokenList
