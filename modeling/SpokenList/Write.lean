import SpokenList.Item
import SpokenList.Plan.Basic

/-! # Writes to a list, and what holds a list

Whatever holds a grocery list can show its rows and be written to in three ways,
each of which names an item.  A write that finds no row to adjust or to remove
does nothing.

A write may fail.  What makes it fail from outside is handed to the holder with
the write; what comes back is the fault that the writer sees, if any.
-/
namespace SpokenList

/-- A change to a list that is asked of its holder. -/
inductive Write where
  /-- Changes the quantity of an item. -/
  | adjust (name : Text) (delta : Int)
  /-- Takes an item off. -/
  | remove (name : Text)
  /-- Raises the quantity of an item, or puts it at the end of the list. -/
  | add (name : Text) (quantity : Int) (note : Option Text)
  deriving DecidableEq, Repr

namespace Write

/-- The item that is meant. -/
def name : Write → Text
  | adjust name _ => name
  | remove name => name
  | add name _ _ => name

/-- The kind of change. -/
def operation : Write → Operation
  | adjust .. => .adjust
  | remove _ => .remove
  | add .. => .add

end Write

/-- The kinds of fault that a write can meet. -/
inductive FaultKind where
  | runtime
  | value
  | persistence
  | operational
  deriving DecidableEq, Repr

/-- The word for a kind of fault. -/
def FaultKind.label : FaultKind → Text
  | runtime => "RuntimeError"
  | value => "ValueError"
  | persistence => "PersistenceWriteError"
  | operational => "OperationalError"

/-- Why a write failed. -/
structure Fault where
  kind : FaultKind
  /-- What is known about it, which may be nothing. -/
  detail : Text
  deriving DecidableEq, Repr

/-- What is told about the fault: the detail, or else its kind. -/
def Fault.text (f : Fault) : Text := if f.detail.isEmpty then f.kind.label else f.detail

/-- The fault that strikes each of the writes of a run, counted from zero. -/
abbrev Faults := Nat → Option Fault

/-- No write is struck. -/
def Faults.none : Faults := fun _ => Option.none

/-- Something that holds a grocery list. -/
class Holder (σ : Type) where
  /-- The rows in display order. -/
  items : σ → List Item
  /-- Carries a write out, or fails; the fault given strikes the write, the fault
  returned is the one that the writer sees. -/
  write : Write → Option Fault → σ → σ × Option Fault

theorem FaultKind.label_ne_nil (k : FaultKind) : k.label ≠ [] := by cases k <;> decide

theorem Fault.text_ne_nil (f : Fault) : f.text ≠ [] := by
  unfold Fault.text
  split
  · exact f.kind.label_ne_nil
  · rename_i h
    simpa using h

end SpokenList
