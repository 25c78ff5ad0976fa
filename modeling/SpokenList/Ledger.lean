import SpokenList.Word
import SpokenList.Write

/-! # Ledgers

A list in a table.  A write looks its row up in the table, stages a change, and
commits; a commit writes every staged change or, if it is struck or a quantity or
a place does not fit a word, none of them, and then the ledger is rolled back:
what was staged is forgotten.

The table itself numbers a new row, when it is written: with the number after the
largest one, or, when the largest one is the largest word, with the first number
that no row has of those that it draws by chance.  What it is going to draw is
kept in the ledger, so whatever is said of every ledger is said of whatever chance
may give.

The table has rules of its own for names: it lowers ASCII letters only and trims
spaces only, while the key that it looks for is the match key of the name.  So a
row whose name has other capitals or other blanks around it is never found.
-/
namespace SpokenList

/-- A change to the rows of a table.  A row to be inserted has no number yet. -/
inductive Change where
  | update (row new : Item)
  | delete (row : Item)
  | insert (name : Text) (quantity : Int) (note : Option Text) (order : Int)
  deriving DecidableEq, Repr

/-- The numbers that the change is to write fit a word each. -/
def Change.fits : Change → Bool
  | update _ new => fitsWord new.quantity
  | delete _ => true
  | insert _ quantity _ order => fitsWord quantity && fitsWord order

/-- A number that a table may draw for a new row. -/
structure Draw where
  number : Int
  positive : 0 < number
  fits : fitsWord number = true
  deriving DecidableEq, Repr

/-- A table of rows, and the changes that wait to be committed. -/
structure Ledger where
  rows : List Item
  pending : List Change
  /-- What the table is going to draw. -/
  draws : List Draw
  deriving DecidableEq, Repr

namespace Ledger

/-- The ledger over the given rows, with nothing staged. -/
def ofItems (rows : List Item) (draws : List Draw := []) : Ledger := ⟨rows, [], draws⟩

/-- The rows in display order. -/
def items (l : Ledger) : List Item := Item.arrange Item.byOrderThenId l.rows

/-- The key that the table itself makes of a name. -/
def columnKey (name : Text) : Text := Text.lowerAscii (Text.trim (· == ' ') name)

/-- The first row in display order that the table finds for a name. -/
def findRow? (l : Ledger) (name : Text) : Option Item :=
  l.items.find? fun row => columnKey row.name == Text.matchKey name

/-! ## Numbers of new rows -/

/-- A row has the number. -/
def isTaken (rows : List Item) (number : Int) : Bool := rows.any (·.id == number)

/-- The least positive number that no row has. -/
def leastFree (rows : List Item) : Int :=
  (((List.range (rows.length + 1)).map fun n => Int.ofNat n + 1).find?
    (!isTaken rows ·)).getD 1

/-- The number that a new row gets, and what is left to draw.  Where nothing is left
that no row has, the table comes upon the least number of that kind. -/
def newNumber (l : Ledger) : Int × List Draw :=
  if fitsWord (Item.nextId l.rows) then (Item.nextId l.rows, l.draws)
  else
    match l.draws.dropWhile fun draw => isTaken l.rows draw.number with
    | draw :: rest => (draw.number, rest)
    | [] => (leastFree l.rows, [])

/-! ## Writes -/

/-- The change that a write stands for, unless it finds no row. -/
def change? (l : Ledger) : Write → Option Change
  | .adjust name delta => (l.findRow? name).map fun row => .update row (row.adjusted delta)
  | .remove name => (l.findRow? name).map .delete
  | .add name quantity note =>
    match l.findRow? name with
    | some row => some (.update row (row.increased quantity note))
    | none => some (.insert (Text.strip name) quantity note (Item.nextOrder l.rows))

/-- The ledger with the change written. -/
def apply (l : Ledger) : Change → Ledger
  | .update row new => { l with rows := Item.modifyFirst (· == row) (fun _ => new) l.rows }
  | .delete row => { l with rows := l.rows.erase row }
  | .insert name quantity note order =>
    let (id, draws) := l.newNumber
    { l with rows := l.rows ++ [⟨id, name, quantity, note, order⟩], draws := draws }

/-- Adds the change to those that wait. -/
def stage (l : Ledger) (w : Write) : Ledger :=
  { l with pending := l.pending ++ (l.change? w).toList }

/-- Forgets what waits. -/
def rollBack (l : Ledger) : Ledger := { l with pending := [] }

/-- Writes what waits, unless the commit is struck or a number does not fit. -/
def commit? (l : Ledger) (fault : Option Fault) : Option Ledger :=
  if fault.isNone && l.pending.all Change.fits then some (l.pending.foldl apply l).rollBack
  else none

/-- What the writer sees of a write that was not committed. -/
def refusal (w : Write) : Fault :=
  ⟨.persistence, "Could not " ++ w.operation.word ++ " '" ++ w.name ++ "'"⟩

/-- Every write is committed on its own, also when it found no row. -/
def write (w : Write) (fault : Option Fault) (l : Ledger) : Ledger × Option Fault :=
  match (l.stage w).commit? fault with
  | some l' => (l', none)
  | none => ((l.stage w).rollBack, some (refusal w))

instance : Holder Ledger := ⟨items, write⟩

end Ledger
end SpokenList
