import SpokenList.Write

/-! # Scratch lists

A list that lives in the process.  Rows are kept in the order in which they came,
and names are looked up in that order; a row that is added gets a number that no
row has had before.
-/
namespace SpokenList

/-- A list in the process, and the number that the next new row gets. -/
structure ScratchList where
  rows : List Item
  nextId : Int
  deriving DecidableEq, Repr

namespace ScratchList

/-- The list that starts with the given rows. -/
def ofItems (rows : List Item) : ScratchList := ⟨rows, Item.nextId rows⟩

/-- The rows in display order. -/
def items (l : ScratchList) : List Item := Item.arrange Item.byOrder l.rows

/-- The row for an item that is new to the list. -/
def newRow (l : ScratchList) (name : Text) (quantity : Int) (note : Option Text) : Item :=
  ⟨l.nextId, Text.strip name, quantity, note, Item.nextOrder l.rows⟩

/-- The list after a write that does not fail. -/
def apply (l : ScratchList) : Write → ScratchList
  | .adjust name delta =>
    { l with rows := Item.modifyFirst (Item.isNamed name) (Item.adjusted delta) l.rows }
  | .remove name => { l with rows := l.rows.eraseP (Item.isNamed name) }
  | .add name quantity note =>
    if (Item.find? l.rows name).isSome then
      { l with rows := Item.modifyFirst (Item.isNamed name) (Item.increased quantity note) l.rows }
    else ⟨l.rows ++ [l.newRow name quantity note], l.nextId + 1⟩

/-- A fault strikes before anything changes, and the writer sees it as it is. -/
def write (w : Write) : Option Fault → ScratchList → ScratchList × Option Fault
  | some fault, l => (l, some fault)
  | none, l => (l.apply w, none)

instance : Holder ScratchList := ⟨items, write⟩

end ScratchList
end SpokenList
