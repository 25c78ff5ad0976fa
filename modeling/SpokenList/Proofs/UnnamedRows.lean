import SpokenList.Proofs.Accounting
import SpokenList.Proofs.Ledger

/-! # Rows that a plan does not name

A write goes out under a name from the working copy, which may be out of date,
and the holder matches that name against its own rows again.  Whatever row it
comes to has the key of the entry that asked for the write: the name that is
written has this key (`Entry.matchKey_write`), and a holder finds only rows with
the key of the name (`Holder.LeavesOthers`).  A ledger does so although it makes
keys by rules of its own, since what it finds matches all the same
(`Ledger.matchKey_of_columnKey`).

So the rows that no entry is about are shown after a plan as they were shown
before it (`Execution.unnamed_rows_untouched`).
-/
namespace SpokenList

/-! ## Holders whose writes leave other rows alone -/

/-- In the states that `settled` describes, a write does not show among rows that
do not have its key, whether it goes through or not. -/
def Holder.LeavesOthers (σ : Type) [Holder σ] (settled : σ → Prop) : Prop :=
  ∀ (w : Write) (fault : Option Fault) (s : σ) (q : Item → Bool), settled s →
    (∀ i : Item, i.key = Text.matchKey w.name → q i = false) →
    (items (write w fault s).1).filter q = (items s).filter q

theorem ScratchList.leavesOthers : Holder.LeavesOthers ScratchList fun _ => True := by
  intro w fault l q _ hq
  cases fault with
  | some fault => rfl
  | none =>
    show (l.apply w).items.filter q = l.items.filter q
    rw [items, items, Item.filter_arrange Item.arranges_byOrder,
      Item.filter_arrange Item.arranges_byOrder, rows_apply, Write.filter_perform _ hq]

namespace Ledger

variable {l : Ledger} {w : Write} {q : Item → Bool}

/-- The row that the table finds for a name has the key of the name. -/
theorem key_of_findRow? {name : Text} {row : Item} (h : l.findRow? name = some row) :
    row.key = Text.matchKey name := by
  have hfound : (columnKey row.name == Text.matchKey name) = true :=
    List.find?_some (p := fun row : Item => columnKey row.name == Text.matchKey name) h
  exact matchKey_of_columnKey (eq_of_beq hfound)

theorem filter_rows_written (hq : ∀ i : Item, i.key = Text.matchKey w.name → q i = false) :
    (l.written w).rows.filter q = l.rows.filter q := by
  rw [rows_written]
  cases hf : l.findRow? w.name with
  | some row =>
    have hrow : ∀ i : Item, (i == row) = true → i.key = Text.matchKey w.name := by
      intro i hi
      rw [eq_of_beq hi]
      exact key_of_findRow? hf
    refine Item.filter_editFirst_of_disjoint (fun i hi => hq i (hrow i hi)) ?_
    intro i j hi hij
    exact hq j ((Write.key_edit hij).trans (hrow i hi))
  | none => exact Write.filter_append_row? _ _ hq l.rows

theorem leavesOthers : Holder.LeavesOthers Ledger Settled := by
  intro w fault l q hl hq
  show (l.write w fault).1.items.filter q = l.items.filter q
  by_cases h : l.Accepts ⟨w, fault⟩
  · have hwrite := write_of_accepts hl h
    dsimp only at hwrite
    rw [hwrite, items, items, Item.filter_arrange Item.arranges_byOrderThenId,
      Item.filter_arrange Item.arranges_byOrderThenId, filter_rows_written hq]
  · have hwrite := write_of_not_accepts hl h
    dsimp only at hwrite
    rw [hwrite]

end Ledger

/-! ## Plans -/

/-- No entry of the plan is about the row. -/
def Plan.passesOver (plan : Plan) (i : Item) : Bool := plan.entries.all fun e => e.key != i.key

namespace Execution

section Run
variable {σ : Type} [Holder σ] {settled : σ → Prop} {p : Progress σ} {e : Entry} {q : Item → Bool}

/-- An entry does not show among rows that do not have its key. -/
theorem filter_items_step (hσ : Holder.FailsCleanly σ settled)
    (hothers : Holder.LeavesOthers σ settled) (policy : FloorPolicy) (faults : Faults)
    (hp : settled p.store) (hq : ∀ i : Item, i.key = e.key → q i = false) :
    let p' := (step policy faults p e).2
    settled p'.store ∧ (Holder.items p'.store).filter q = (Holder.items p.store).filter q := by
  intro p'
  obtain ⟨_, ⟨_, _, _, _, hsame⟩ | ⟨w, _, _, _, hname, _, hstore, _⟩⟩ :=
    accounts_step policy faults p e
  · rw [show p' = p from hsame]
    exact ⟨hp, rfl⟩
  · rw [show p'.store = _ from hstore]
    refine ⟨hσ.settled_write w _ _ hp, hothers w _ _ q hp fun i hi => hq i ?_⟩
    exact hi.trans hname

/-- A run of entries does not show among rows that have the key of none of them. -/
theorem filter_items_run (hσ : Holder.FailsCleanly σ settled)
    (hothers : Holder.LeavesOthers σ settled) (policy : FloorPolicy) (faults : Faults)
    {entries : List Entry} (hp : settled p.store)
    (hq : ∀ e ∈ entries, ∀ i : Item, i.key = e.key → q i = false) :
    (Holder.items (run policy faults p entries).2.store).filter q =
      (Holder.items p.store).filter q := by
  induction entries generalizing p with
  | nil => rfl
  | cons e rest ih =>
    obtain ⟨hsettled, hstep⟩ :=
      filter_items_step hσ hothers policy faults hp (hq e (by simp))
    rw [run_cons, ih hsettled fun e' he' => hq e' (List.mem_cons_of_mem e he'), hstep]

end Run

/-- After an execution of the plan the rows that no entry is about are shown as they
were before: the same rows, in the same order. -/
def LeavesUnnamed {σ : Type} [Holder σ] (policy : FloorPolicy) (faults : Faults) (plan : Plan)
    (snapshot : List Item) (start : σ) : Prop :=
  (Holder.items (ofPlan policy faults plan snapshot start).store).filter plan.passesOver =
    (Holder.items start).filter plan.passesOver

theorem leavesUnnamed {σ : Type} [Holder σ] {settled : σ → Prop}
    (hσ : Holder.FailsCleanly σ settled) (hothers : Holder.LeavesOthers σ settled)
    (policy : FloorPolicy) (faults : Faults) (plan : Plan) (snapshot : List Item) {start : σ}
    (hstart : settled start) : LeavesUnnamed policy faults plan snapshot start := by
  rw [LeavesUnnamed, ofPlan_eq]
  refine filter_items_run hσ hothers policy faults (p := ⟨start, snapshot, 0⟩) hstart ?_
  intro e he i hi
  exact List.all_eq_false.mpr ⟨e, he, by simp [hi]⟩

/-- **Rows that a plan does not name are left untouched**, both on a scratch list and
on a ledger over any rows, whatever rows the plan is matched against and whichever
writes fail. -/
theorem unnamed_rows_untouched (policy : FloorPolicy) (faults : Faults) (plan : Plan)
    (snapshot : List Item) :
    (∀ l : ScratchList, LeavesUnnamed policy faults plan snapshot l) ∧
      ∀ (rows : List Item) (draws : List Draw),
        LeavesUnnamed policy faults plan snapshot (Ledger.ofItems rows draws) :=
  ⟨fun _ => leavesUnnamed ScratchList.failsCleanly ScratchList.leavesOthers policy faults plan
      snapshot trivial,
    fun rows draws => leavesUnnamed Ledger.failsCleanly Ledger.leavesOthers policy faults plan
      snapshot (Ledger.settled_ofItems rows draws)⟩

end Execution
end SpokenList
