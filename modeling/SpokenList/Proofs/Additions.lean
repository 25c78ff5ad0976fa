import Mathlib.Algebra.Ring.Int.Defs
import SpokenList.Proofs.OneName

/-! # What additions add up to

An execution decides from its working copy under which name an addition is
written, and the list decides from its own rows whether there is a row to raise.
The two may disagree on what is there, but not on the key (`Entry.write_add`), and
that is all the list looks for.  So an addition that goes through raises the first
row of its key, or puts one row there where there is none, and it does not show
under other keys; one that fails changes nothing (`Execution.gained_step`).

Hence the quantities under a key grow by what was added under it, and no key gets
a second row (`Execution.additions_conserved`).
-/
namespace SpokenList

namespace Item

/-- What the rows have in all. -/
def amount (rows : List Item) : Int := (rows.map quantity).sum

theorem amount_cons (i : Item) (rows : List Item) :
    amount (i :: rows) = i.quantity + amount rows := by
  rw [amount, List.map_cons, List.sum_cons, amount]

/-- What becomes of the rows of a key when quantities are added to them: what they
have in all grows by these, and where there is no row, one is made for them. -/
structure Gained (added : List Int) (before after : List Item) : Prop where
  amount : amount after = amount before + added.sum
  length : after.length = if before = [] ∧ added ≠ [] then 1 else before.length

namespace Gained

variable {added more : List Int} {before between after : List Item}

theorem refl (rows : List Item) : Gained [] rows rows :=
  ⟨(Int.add_zero _).symm, (if_neg fun h => h.2 rfl).symm⟩

theorem trans (h : Gained added before between) (h' : Gained more between after) :
    Gained (added ++ more) before after where
  amount := by rw [h'.amount, h.amount, List.sum_append, Int.add_assoc]
  length := by
    -- there is no row in between just when there was none and none was added
    have hlength := h.length
    have hbetween : between = [] ↔ before = [] ∧ added = [] := by
      rw [← List.length_eq_zero_iff, hlength]
      cases before <;> simp
    rw [h'.length, hlength]
    cases before with
    | cons i rest => simp [hbetween]
    | nil => cases added <;> simp [hbetween]

/-- More of the row in front. -/
theorem increased (n : Int) (note : Option Text) (i : Item) (rows : List Item) :
    Gained [n] (i :: rows) (i.increased n note :: rows) where
  amount := by
    rw [amount_cons, amount_cons, List.sum_singleton]
    show i.quantity + n + Item.amount rows = _
    omega
  length := (if_neg fun h => List.cons_ne_nil i rows h.1).symm

/-- A row of its own. -/
theorem new (i : Item) : Gained [i.quantity] [] [i] where
  amount := by
    rw [amount_cons, List.sum_singleton]
    exact Int.add_comm _ _
  length := (if_pos ⟨rfl, List.cons_ne_nil _ _⟩).symm

end Gained
end Item

/-- The quantity that an outcome has added to the rows of a key. -/
def Outcome.added? (k : Text) (o : Outcome) : Option Int :=
  match o.entry with
  | .add e => if o.status = .applied ∧ Text.matchKey e.name = k then some e.quantity else none
  | _ => none

/-- The quantities of the additions to a key that went through. -/
def Report.added (k : Text) (r : Report) : List Int := r.filterMap (Outcome.added? k)

theorem Report.added_cons (k : Text) (o : Outcome) (r : Report) :
    Report.added k (o :: r) = (o.added? k).toList ++ Report.added k r := by
  cases h : o.added? k <;> simp [Report.added, h]

/-- An addition that goes through raises the first row of its key, or puts one
there. -/
theorem Write.gained_perform {name k : Text} (hk : Text.matchKey name = k) (id n : Int)
    (note : Option Text) (rows : List Item) :
    Item.Gained [n] (Item.ofKey k rows)
      (Item.ofKey k ((Write.add name n note).perform id rows)) := by
  cases h : Item.ofKey k rows with
  | cons i rest =>
    rw [ofKey_perform_cons (w := .add name n note) id hk h]
    exact Item.Gained.increased n note i rest
  | nil =>
    rw [ofKey_perform_nil (w := .add name n note) id hk h]
    exact Item.Gained.new ⟨id, Text.strip name, n, note, Item.nextOrder rows⟩

namespace Execution

/-- One addition to a list. -/
theorem gained_step (policy : FloorPolicy) (faults : Faults) (p : Progress ScratchList)
    (e : AddEntry) (k : Text) :
    let x := step policy faults p (.add e)
    Item.Gained (x.1.outcome.added? k).toList (Item.ofKey k p.store.rows)
      (Item.ofKey k x.2.store.rows) := by
  intro x
  obtain ⟨effect, heffect⟩ : ∃ effect, (Entry.add e).effect? policy p.working = some effect :=
    ⟨_, rfl⟩
  obtain ⟨name, hname, hw⟩ := Entry.write_add heffect
  cases hf : faults p.attempts with
  | some fault =>
    have hx : x = (.failed (.add e) effect.write fault, ⟨p.store, p.working, p.attempts + 1⟩) :=
      step_of_fault heffect (by rw [hf]; rfl)
    rw [hx]
    exact Item.Gained.refl _
  | none =>
    have hx : x =
        (.applied (.add e) effect, ⟨p.store.apply effect.write, effect.working, p.attempts + 1⟩) :=
      step_of_done heffect (by rw [hf]; rfl)
    rw [hx]
    dsimp only
    rw [ScratchList.rows_apply, hw]
    by_cases hk : Text.matchKey e.name = k
    · have hadded : Outcome.added? k (Event.applied (.add e) effect).outcome = some e.quantity :=
        if_pos ⟨rfl, hk⟩
      rw [hadded]
      exact Write.gained_perform (hname.trans hk) ..
    · have hadded : Outcome.added? k (Event.applied (.add e) effect).outcome = none :=
        if_neg fun h => hk h.2
      rw [hadded, Write.ofKey_perform_of_ne (w := .add name _ _) _ (hname ▸ hk)]
      exact Item.Gained.refl _

/-- A run of additions. -/
theorem gained_run (policy : FloorPolicy) (faults : Faults) (p : Progress ScratchList)
    (adds : List AddEntry) (k : Text) :
    let x := run policy faults p (adds.map .add)
    Item.Gained (Report.added k (x.1.map Event.outcome)) (Item.ofKey k p.store.rows)
      (Item.ofKey k x.2.store.rows) := by
  induction adds generalizing p with
  | nil => exact Item.Gained.refl _
  | cons e rest ih =>
    rw [List.map_cons, run_cons]
    dsimp only
    rw [List.map_cons, Report.added_cons]
    exact (gained_step policy faults p e k).trans (ih _)

/-- **Additions neither lose nor double what they add.**  Whatever rows they are
matched against and whichever writes fail, the quantities under each key grow by
those of the additions to it that went through, and where there is no row of the
key, these make one. -/
theorem additions_conserved (policy : FloorPolicy) (faults : Faults) (adds : List AddEntry)
    (raw : Text) (snapshot : List Item) (l : ScratchList) (k : Text) :
    let x := ofPlan policy faults ⟨adds, [], [], raw⟩ snapshot l
    Item.Gained (x.report.added k) (Item.ofKey k l.rows) (Item.ofKey k x.store.rows) := by
  intro x
  have hentries : Plan.entries ⟨adds, [], [], raw⟩ = adds.map .add := by simp [Plan.entries]
  have hx : x = _ := ofPlan_eq ..
  rw [hx, hentries]
  exact gained_run policy faults ⟨l, snapshot, 0⟩ adds k

end Execution
end SpokenList
