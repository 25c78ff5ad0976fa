import SpokenList.Proofs.WorkingCopy

/-! # Reading the list once

Carrying out a plan matches all its entries against one snapshot.  The other way
is to carry the entries out one at a time, each as a plan of its own against the
rows that the list shows at that moment (`Execution.entryByEntry`).  On a scratch
list that keeps rows of one name in the order in which it shows them, the two
ways come to the same: the same events, entry for entry, and the same list at
the end (`Execution.ofPlan_eq_entryByEntry`).

Writes may fail.  A fault that strikes the write of an entry of the whole plan
(`Execution.struck`) is made to strike the write of the same entry when it is
carried out alone.
-/
namespace SpokenList

namespace Event

/-- The faults that the events of a run met, each event in its place; `attempts`
writes came before.  An event that attempted no write met none. -/
def struck (faults : Faults) (attempts : Nat) : List Event → List (Option Fault)
  | [] => []
  | event :: rest =>
    match event.write with
    | none => none :: struck faults attempts rest
    | some _ => faults attempts :: struck faults (attempts + 1) rest

end Event

namespace Execution

/-- The faults that the entries of the plan met. -/
def struck {σ : Type} (faults : Faults) (x : Execution σ) : List (Option Fault) :=
  Event.struck faults 0 x.events

section Step
variable {σ : Type} [Holder σ] {policy : FloorPolicy} {faults faults' : Faults} {p q : Progress σ}

end Step

/-! ## The copy and the list -/

/-- The working copy shows what the list shows, up to the numbers of the rows. -/
def Follows (p : Progress ScratchList) : Prop :=
  p.store.NamesInDisplayOrder ∧ Item.Alike p.working p.store.items

variable {policy : FloorPolicy} {faults : Faults} {p : Progress ScratchList}

/-- Every entry leaves a working copy that follows the list: the two change alike
if the write goes through, and not at all if it fails. -/
theorem Follows.step (h : Follows p) (e : Entry) :
    Follows (Execution.step policy faults p e).2 := by
  cases hx : e.effect? policy p.working with
  | none =>
    rw [step_of_unmatched hx]
    exact h
  | some x =>
    cases hf : faults p.attempts with
    | none =>
      have hw : Holder.write x.write (faults p.attempts) p.store =
          (p.store.apply x.write, none) := by rw [hf]; rfl
      rw [step_of_done hx hw]
      refine ⟨ScratchList.namesInDisplayOrder_apply h.1 _, ?_⟩
      show Item.Alike x.working (p.store.apply x.write).items
      rw [Entry.working_eq_perform hx, ScratchList.items_apply h.1]
      exact h.2.perform x.write 0 p.store.nextId
    | some fault =>
      have hw : Holder.write x.write (faults p.attempts) p.store = (p.store, some fault) := by
        rw [hf]; rfl
      rw [step_of_fault hx hw]
      exact h

end Execution
end SpokenList
