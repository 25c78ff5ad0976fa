import SpokenList.Text.Quoted

/-! # Floor policies

What happens to a quantity that an adjustment takes to the bottom of its range.
-/
namespace SpokenList

/-- The three ways to treat a quantity that would fall to zero or below. -/
inductive FloorPolicy where
  /-- A quantity never falls below one. -/
  | clampToOne
  /-- A quantity may be zero, and the row stays. -/
  | clampToZero
  /-- The row goes when its quantity reaches zero. -/
  | deleteAtZero
  deriving DecidableEq, Repr

namespace FloorPolicy

/-- All policies. -/
def all : List FloorPolicy := [clampToOne, clampToZero, deleteAtZero]

/-- The name of the policy. -/
def name : FloorPolicy → Text
  | clampToOne => "clamp_to_one"
  | clampToZero => "clamp_to_zero"
  | deleteAtZero => "delete_at_zero"

/-- The policy of that name. -/
def ofName? (t : Text) : Option FloorPolicy := all.find? fun p => p.name == t

/-- What is said of a name that no policy has. -/
def unknownName (t : Text) : Text := Text.quoted t ++ " is not a valid AdjustFloorPolicy"

/-- The least quantity of a row under the policy. -/
def least : FloorPolicy → Int
  | clampToOne => 1
  | clampToZero => 0
  | deleteAtZero => 0

/-- The quantity raised to the least one. -/
def apply (p : FloorPolicy) (quantity : Int) : Int := max p.least quantity

/-- A row with this quantity, which has been raised already, is to go. -/
def deletes (p : FloorPolicy) (quantity : Int) : Bool := p == deleteAtZero && quantity ≤ 0

theorem ofName?_name (p : FloorPolicy) : ofName? p.name = some p := by
  cases p <;> decide

theorem least_le_apply (p : FloorPolicy) (quantity : Int) : p.least ≤ p.apply quantity :=
  Int.le_max_left ..

/-- Of the raised quantities only zero can make a row go. -/
theorem deletes_apply {p : FloorPolicy} {quantity : Int} :
    p.deletes (p.apply quantity) = true ↔ p = deleteAtZero ∧ quantity ≤ 0 := by
  cases p with
  | deleteAtZero =>
    rw [deletes, apply, least, show (deleteAtZero == deleteAtZero) = true from rfl, Bool.true_and]
    simp only [decide_eq_true_eq, true_and]
    omega
  | _ => simp [deletes]

end FloorPolicy
end SpokenList
