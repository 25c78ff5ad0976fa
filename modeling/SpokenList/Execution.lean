import SpokenList.FloorPolicy
import SpokenList.Journal
import SpokenList.Outcome
import SpokenList.Write

/-! # Carrying out a plan

A plan is carried out entry by entry in the order of `Plan.entries`.  Each entry
is matched against a working copy of the rows, which starts as the snapshot that
the caller took and follows every write that went through; the holder itself is
not read again.  An adjustment or a removal that matches no row does nothing.  A
write that fails is noted with its entry, and the next entry follows.
-/
namespace SpokenList

/-- What an entry does when a row matches it, or when it needs none. -/
structure Effect where
  /-- The write that is asked of the holder. -/
  write : Write
  /-- The working copy once the write has gone through. -/
  working : List Item
  /-- The row is taken off because its quantity reached the bottom. -/
  exhausted : Bool
  deriving DecidableEq, Repr

namespace Effect

/-- An adjustment of the row that it means. -/
def ofAdjust (policy : FloorPolicy) (working : List Item) (delta : Int) (row : Item) : Effect :=
  let quantity := policy.apply (row.quantity + delta)
  if policy.deletes quantity then
    ⟨.remove row.name, working.eraseP (Item.isNamed row.name), true⟩
  else
    ⟨.adjust row.name (quantity - row.quantity),
      Item.modifyFirst (Item.isNamed row.name) (fun i => { i with quantity := quantity }) working,
      false⟩

/-- A removal of the row that it means. -/
def ofRemove (working : List Item) (row : Item) : Effect :=
  ⟨.remove row.name, working.eraseP (Item.isNamed row.name), false⟩

/-- An addition, to the row that it means or as a new row, whose number is not
known before the holder is read again. -/
def ofAdd (working : List Item) (e : AddEntry) : Option Item → Effect
  | some row =>
    ⟨.add row.name e.quantity e.note,
      Item.modifyFirst (Item.isNamed row.name) (Item.increased e.quantity e.note) working, false⟩
  | none =>
    let name := Text.strip e.name
    ⟨.add name e.quantity e.note,
      working ++ [⟨0, name, e.quantity, e.note, Item.nextOrder working⟩], false⟩

end Effect

namespace Entry

/-- What the entry does, unless it needs a row and none matches. -/
def effect? (policy : FloorPolicy) (working : List Item) : Entry → Option Effect
  | adjust e => (Item.find? working e.name).map (Effect.ofAdjust policy working e.delta)
  | remove e => (Item.find? working e.name).map (Effect.ofRemove working)
  | add e => some (Effect.ofAdd working e (Item.find? working e.name))

end Entry

/-- What happened when one entry was carried out. -/
structure Event where
  outcome : Outcome
  /-- The write that was attempted, if any. -/
  write : Option Write
  journal : List Record
  deriving DecidableEq, Repr

namespace Event

/-- No row matched. -/
def unmatched (e : Entry) : Event :=
  ⟨⟨e, .noMatch, none⟩, none,
    [⟨.info, .execution, "No list item matches '" ++ e.name ++ "', skipping " ++
      e.operation.word⟩]⟩

/-- The write went through. -/
def applied (e : Entry) (effect : Effect) : Event :=
  ⟨⟨e, .applied, none⟩, some effect.write,
    if effect.exhausted then
      [⟨.debug, .execution, "Adjust took '" ++ effect.write.name ++ "' to zero, row deleted"⟩]
    else []⟩

/-- The write failed. -/
def failed (e : Entry) (w : Write) (fault : Fault) : Event :=
  ⟨⟨e, .failed, some fault.text⟩, some w,
    [⟨.warning, .execution, e.operation.word ++ " of '" ++ e.name ++ "' failed: " ++
      fault.detail⟩]⟩

end Event

namespace Execution

/-- How far a plan has been carried out: the holder, the working copy, and how
many writes have been attempted. -/
structure Progress (σ : Type) where
  store : σ
  working : List Item
  attempts : Nat

variable {σ : Type} [Holder σ]

/-- Carries out one entry. -/
def step (policy : FloorPolicy) (faults : Faults) (p : Progress σ) (e : Entry) :
    Event × Progress σ :=
  match e.effect? policy p.working with
  | none => (.unmatched e, p)
  | some effect =>
    match Holder.write effect.write (faults p.attempts) p.store with
    | (store, none) => (.applied e effect, ⟨store, effect.working, p.attempts + 1⟩)
    | (store, some fault) =>
      (.failed e effect.write fault, ⟨store, p.working, p.attempts + 1⟩)

/-- Carries out entries one after the other. -/
def run (policy : FloorPolicy) (faults : Faults) (p : Progress σ) :
    List Entry → List Event × Progress σ
  | [] => ([], p)
  | e :: rest =>
    let (event, p) := step policy faults p e
    let (events, p) := run policy faults p rest
    (event :: events, p)

section Lemmas
variable {policy : FloorPolicy} {faults : Faults} {p : Progress σ} {e : Entry} {effect : Effect}
  {store : σ}

theorem step_of_unmatched (h : e.effect? policy p.working = none) :
    step policy faults p e = (.unmatched e, p) := by
  rw [step, h]

theorem step_of_done (h : e.effect? policy p.working = some effect)
    (hw : Holder.write effect.write (faults p.attempts) p.store = (store, none)) :
    step policy faults p e = (.applied e effect, ⟨store, effect.working, p.attempts + 1⟩) := by
  simp only [step, h, hw]

theorem step_of_fault {fault : Fault} (h : e.effect? policy p.working = some effect)
    (hw : Holder.write effect.write (faults p.attempts) p.store = (store, some fault)) :
    step policy faults p e =
      (.failed e effect.write fault, ⟨store, p.working, p.attempts + 1⟩) := by
  simp only [step, h, hw]

/-- What carrying out an entry comes to: no row matches, or its write goes
through, or it fails. -/
theorem step_cases (policy : FloorPolicy) (faults : Faults) (p : Progress σ) (e : Entry) :
    (e.effect? policy p.working = none ∧ step policy faults p e = (.unmatched e, p)) ∨
      ∃ effect, e.effect? policy p.working = some effect ∧
        ((∃ store, Holder.write effect.write (faults p.attempts) p.store = (store, none) ∧
            step policy faults p e =
              (.applied e effect, ⟨store, effect.working, p.attempts + 1⟩)) ∨
          ∃ store fault,
            Holder.write effect.write (faults p.attempts) p.store = (store, some fault) ∧
            step policy faults p e =
              (.failed e effect.write fault, ⟨store, p.working, p.attempts + 1⟩)) := by
  cases h : e.effect? policy p.working with
  | none => exact Or.inl ⟨rfl, step_of_unmatched h⟩
  | some effect =>
    refine Or.inr ⟨effect, rfl, ?_⟩
    cases hw : Holder.write effect.write (faults p.attempts) p.store with
    | mk store outcome =>
      cases outcome with
      | none => exact Or.inl ⟨store, rfl, step_of_done h hw⟩
      | some fault => exact Or.inr ⟨store, fault, rfl, step_of_fault h hw⟩

theorem run_nil : run policy faults p [] = ([], p) := rfl

theorem run_cons (rest : List Entry) :
    run policy faults p (e :: rest) =
      ((step policy faults p e).1 :: (run policy faults (step policy faults p e).2 rest).1,
        (run policy faults (step policy faults p e).2 rest).2) := rfl

theorem run_append (xs ys : List Entry) :
    run policy faults p (xs ++ ys) =
      ((run policy faults p xs).1 ++ (run policy faults (run policy faults p xs).2 ys).1,
        (run policy faults (run policy faults p xs).2 ys).2) := by
  induction xs generalizing p with
  | nil => rfl
  | cons e rest ih =>
    rw [List.cons_append, run_cons, run_cons, ih]
    rfl

/-- Every entry has its event. -/
theorem length_run (entries : List Entry) : (run policy faults p entries).1.length = entries.length := by
  induction entries generalizing p with
  | nil => rfl
  | cons e rest ih => rw [run_cons, List.length_cons, List.length_cons, ih]

end Lemmas

end Execution

/-- A plan that has been carried out. -/
structure Execution (σ : Type) where
  store : σ
  events : List Event

namespace Execution

variable {σ : Type}

/-- Carries out a plan on a holder, matched against a snapshot of its rows. -/
def ofPlan [Holder σ] (policy : FloorPolicy) (faults : Faults) (plan : Plan)
    (snapshot : List Item) (store : σ) : Execution σ :=
  let (events, p) := run policy faults ⟨store, snapshot, 0⟩ plan.entries
  ⟨p.store, events⟩

theorem ofPlan_eq [Holder σ] (policy : FloorPolicy) (faults : Faults) (plan : Plan)
    (snapshot : List Item) (store : σ) :
    ofPlan policy faults plan snapshot store =
      ⟨(run policy faults ⟨store, snapshot, 0⟩ plan.entries).2.store,
        (run policy faults ⟨store, snapshot, 0⟩ plan.entries).1⟩ := rfl

/-- The outcome of every entry. -/
def report (x : Execution σ) : Report := x.events.map Event.outcome

/-- The writes that were attempted, in order. -/
def writes (x : Execution σ) : List Write := x.events.filterMap Event.write

/-- The closing record. -/
def closing (r : Report) : Record :=
  ⟨.info, .execution, "Executed plan: " ++ Text.ofNat (r.count .applied) ++ " applied, " ++
    Text.ofNat (r.count .noMatch) ++ " no match, " ++ Text.ofNat (r.count .failed) ++
    " failed"⟩

/-- What was noted on the way. -/
def journal (x : Execution σ) : List Record :=
  x.events.flatMap Event.journal ++ [closing x.report]

end Execution
end SpokenList
