import Mathlib.Data.List.Forall2
import SpokenList.Proofs.Ledger
import SpokenList.Proofs.WorkingCopy

/-! # Either holder will do

A plan that is carried out on a ledger and on a scratch list with the same rows
comes to the same on both, as long as names are ASCII and numbers fit the words
of the table: the same writes are attempted, every entry has the same outcome,
and the same rows are shown at the end (`Execution.ledger_matches_scratchList`).
The two differ in what they do not promise: the text of a fault, and the numbers
of rows that the plan puts on the list, which a ledger may give a second time
and a scratch list never does.

The proof keeps the two runs in step (`Execution.InStep`).  Their working copies
are equal, so they ask for the same writes; a write that is struck changes
neither holder, and one that is not does the same to the rows that either shows
(`ScratchList.items_apply`, `Ledger.items_written`).
-/
namespace SpokenList

namespace Item

/-- The same row, except that a row which is new may have another number.  New is
a row with a number that no row had before; the first of the two tells. -/
def Matches (before : List Item) (i j : Item) : Prop :=
  i.unnumbered = j.unnumbered ∧ (i.id ∈ before.map Item.id → i = j)

variable {before xs ys : List Item} {i j : Item} {p : Item → Bool} {g : Item → Option Item}

theorem Matches.refl (before : List Item) (i : Item) : Matches before i i := ⟨rfl, fun _ => rfl⟩

theorem alike_of_matches (h : List.Forall₂ (Matches before) xs ys) : Alike xs ys := by
  induction h with
  | nil => rfl
  | cons hij _ ih =>
    unfold Alike
    rw [List.map_cons, List.map_cons, hij.1, ih]

/-- Rows that match have the same key. -/
theorem Matches.key (h : Matches before i j) : i.key = j.key := by
  have hkey : i.unnumbered.key = j.unnumbered.key := congrArg Item.key h.1
  exact hkey

/-- What writes make of rows that match, they match as well. -/
theorem Matches.edit (h : Matches before i j) (w : Write) :
    Option.Rel (Matches before) (w.edit i) (w.edit j) := by
  cases w with
  | adjust name delta =>
    exact .some ⟨congrArg (Item.adjusted delta) h.1, fun hold => congrArg _ (h.2 hold)⟩
  | remove name => exact .none
  | add name quantity note =>
    exact .some ⟨congrArg (Item.increased quantity note) h.1, fun hold => congrArg _ (h.2 hold)⟩

theorem forall₂_editFirst {R : Item → Item → Prop} (hp : ∀ i j, R i j → p i = p j)
    (hg : ∀ i j, R i j → Option.Rel R (g i) (g j)) (h : List.Forall₂ R xs ys) :
    List.Forall₂ R (editFirst p g xs) (editFirst p g ys) := by
  induction h with
  | nil => exact .nil
  | @cons i j xs ys hij hrest ih =>
    cases hi : p i with
    | false =>
      rw [editFirst_cons_neg hi, editFirst_cons_neg ((hp i j hij).symm.trans hi)]
      exact .cons hij ih
    | true =>
      rw [editFirst_cons_pos hi, editFirst_cons_pos ((hp i j hij).symm.trans hi)]
      have hnew := hg i j hij
      revert hnew
      generalize g i = i'
      generalize g j = j'
      intro hnew
      cases hnew with
      | none => exact hrest
      | some hnew => exact .cons hnew hrest

end Item

/-- A write keeps rows matched, whatever numbers the holders give, as long as the
first gives one that no row had before. -/
theorem Write.matches_perform {before xs ys : List Item}
    (h : List.Forall₂ (Item.Matches before) xs ys) {m : Int} (hm : ∀ k ∈ before, k.id < m)
    (w : Write) (n : Int) :
    List.Forall₂ (Item.Matches before) (w.perform m xs) (w.perform n ys) := by
  have halike := Item.alike_of_matches h
  have hname := halike.find? w.name
  cases hx : Item.find? xs w.name with
  | some i =>
    cases hy : Item.find? ys w.name with
    | none => simp [hx, hy] at hname
    | some j =>
      rw [perform_of_found hx, perform_of_found hy]
      refine Item.forall₂_editFirst ?_ (fun _ _ hij => hij.edit w) h
      intro i j hij
      rw [Item.isNamed, Item.isNamed, hij.key]
  | none =>
    cases hy : Item.find? ys w.name with
    | some j => simp [hx, hy] at hname
    | none =>
      rw [perform_of_missing hx, perform_of_missing hy, halike.nextOrder]
      refine List.rel_append h ?_
      cases w with
      | add name quantity note =>
        refine .cons ⟨rfl, fun hold => ?_⟩ .nil
        -- the number is new, so this is no row from before
        obtain ⟨k, hk, hid⟩ := List.mem_map.mp hold
        have hlt := hm k hk
        rw [hid] at hlt
        exact absurd hlt (Int.lt_irrefl m)
      | _ => exact .nil

/-- The name that an entry writes is that of a row, or its own. -/
theorem Entry.name_write {policy : FloorPolicy} {working : List Item} {e : Entry}
    {effect : Effect} (h : e.effect? policy working = some effect) :
    (∃ i ∈ working, effect.write.name = i.name) ∨ effect.write.name = Text.strip e.name := by
  cases e with
  | adjust e =>
    obtain ⟨row, hrow, rfl⟩ := Option.map_eq_some_iff.mp h
    refine Or.inl ⟨row, List.mem_of_find?_eq_some hrow, ?_⟩
    unfold Effect.ofAdjust
    dsimp only
    split <;> rfl
  | remove e =>
    obtain ⟨row, hrow, rfl⟩ := Option.map_eq_some_iff.mp h
    exact Or.inl ⟨row, List.mem_of_find?_eq_some hrow, rfl⟩
  | add e =>
    obtain rfl : Effect.ofAdd working e (Item.find? working e.name) = effect := Option.some.inj h
    cases hrow : Item.find? working e.name with
    | some row => exact Or.inl ⟨row, List.mem_of_find?_eq_some hrow, rfl⟩
    | none => exact Or.inr rfl

/-- Numbers are given in ascending order, so none is given twice. -/
theorem ScratchList.nextId_le_apply (l : ScratchList) (w : Write) :
    l.nextId ≤ (l.apply w).nextId := by
  cases w with
  | add name quantity note =>
    rw [apply]
    split
    · exact Int.le_refl _
    · exact Int.le_add_one (Int.le_refl _)
  | _ => exact Int.le_refl _

/-- What of an event does not depend on who holds the list: the entry, what became
of it, and the write that was attempted. -/
def Event.gist (event : Event) : Entry × Status × Option Write :=
  (event.outcome.entry, event.outcome.status, event.write)

namespace Execution

/-- All numbers that a ledger is to store fit a word each: those of the change
that an entry asks for, unless its commit is struck. -/
def StoresWords (policy : FloorPolicy) (faults : Faults) :
    Progress Ledger → List Entry → Prop
  | _, [] => True
  | p, e :: rest =>
    (∀ effect ∈ e.effect? policy p.working, faults p.attempts = none →
      ∀ change ∈ p.store.change? effect.write, change.fits = true) ∧
    StoresWords policy faults (step policy faults p e).2 rest

instance decidableStoresWords (policy : FloorPolicy) (faults : Faults) :
    (p : Progress Ledger) → (entries : List Entry) → Decidable (StoresWords policy faults p entries)
  | _, [] => .isTrue trivial
  | p, e :: rest =>
    have := decidableStoresWords policy faults (step policy faults p e).2 rest
    inferInstanceAs (Decidable (_ ∧ _))

/-- A run on a scratch list and one on a ledger are in step: they have got equally
far, and show the same rows, those of `before` and new ones. -/
structure InStep (before : List Item) (p : Progress ScratchList) (q : Progress Ledger) : Prop where
  working : p.working = q.working
  attempts : p.attempts = q.attempts
  inOrder : p.store.NamesInDisplayOrder
  fresh : ∀ k ∈ before, k.id < p.store.nextId
  settled : q.store.Settled
  plain : q.store.PlainNames
  plainWorking : ∀ i ∈ q.working, Ledger.PlainName i.name
  rows : List.Forall₂ (Item.Matches before) p.store.items q.store.items

variable {policy : FloorPolicy} {faults : Faults} {before : List Item}
  {p : Progress ScratchList} {q : Progress Ledger}

/-- **The two runs stay in step**, entry by entry. -/
theorem InStep.step (h : InStep before p q) {e : Entry}
    (hname : Ledger.PlainName (Text.strip e.name)) {rest : List Entry}
    (hwords : StoresWords policy faults q (e :: rest)) :
    (Execution.step policy faults p e).1.gist = (Execution.step policy faults q e).1.gist ∧
      InStep before (Execution.step policy faults p e).2 (Execution.step policy faults q e).2 := by
  cases hx : e.effect? policy q.working with
  | none =>
    have hx' : e.effect? policy p.working = none := by rw [h.working, hx]
    rw [step_of_unmatched hx, step_of_unmatched hx']
    exact ⟨rfl, h⟩
  | some effect =>
    have hx' : e.effect? policy p.working = some effect := by rw [h.working, hx]
    have hwrite : Ledger.PlainName (Text.strip effect.write.name) := by
      rcases Entry.name_write hx with ⟨i, hi, hi'⟩ | hown
      · rw [hi']
        exact (h.plainWorking i hi).strip
      · rw [hown, Text.strip_strip]
        exact hname
    cases hf : faults q.attempts with
    | some fault =>
      -- the write is struck, and neither holder changes
      have hf' : faults p.attempts = some fault := by rw [h.attempts, hf]
      have hp : Holder.write effect.write (faults p.attempts) p.store = (p.store, some fault) := by
        rw [hf']
        rfl
      have hrefused : ¬ q.store.Accepts ⟨effect.write, faults q.attempts⟩ := by
        rw [hf]
        exact fun haccepts => by cases haccepts.1
      have hq : Holder.write effect.write (faults q.attempts) q.store =
          (q.store, some (Ledger.refusal effect.write)) :=
        Ledger.write_of_not_accepts h.settled hrefused
      rw [step_of_fault hx' hp, step_of_fault hx hq]
      refine ⟨rfl, ?_⟩
      exact { h with attempts := congrArg (· + 1) h.attempts }
    | none =>
      have hf' : faults p.attempts = none := by rw [h.attempts, hf]
      have hp : Holder.write effect.write (faults p.attempts) p.store =
          (p.store.apply effect.write, none) := by
        rw [hf']
        rfl
      have haccepts : q.store.Accepts ⟨effect.write, faults q.attempts⟩ :=
        Ledger.accepts_iff.mpr ⟨hf, hwords.1 effect hx hf⟩
      have hq : Holder.write effect.write (faults q.attempts) q.store =
          (q.store.written effect.write, none) :=
        Ledger.write_of_accepts h.settled haccepts
      rw [step_of_done hx' hp, step_of_done hx hq]
      refine ⟨rfl, ?_⟩
      exact
        { working := rfl
          attempts := congrArg (· + 1) h.attempts
          inOrder := ScratchList.namesInDisplayOrder_apply h.inOrder effect.write
          fresh := fun k hk =>
            Int.lt_of_lt_of_le (h.fresh k hk) (p.store.nextId_le_apply effect.write)
          settled := rfl
          plain := Ledger.plainNames_written h.plain hwrite
          plainWorking := by
            intro i hi
            rw [Entry.working_eq_perform hx] at hi
            rcases Write.name_of_mem_perform hi with ⟨j, hj, hij⟩ | hown
            · rw [hij]
              exact h.plainWorking j hj
            · rw [hown]
              exact hwrite
          rows := by
            show List.Forall₂ _ (p.store.apply effect.write).items
              (q.store.written effect.write).items
            rw [ScratchList.items_apply h.inOrder, Ledger.items_written h.plain]
            exact Write.matches_perform h.rows h.fresh effect.write _ }

theorem InStep.run (h : InStep before p q) {entries : List Entry}
    (hnames : ∀ e ∈ entries, Ledger.PlainName (Text.strip e.name))
    (hwords : StoresWords policy faults q entries) :
    (Execution.run policy faults p entries).1.map Event.gist =
        (Execution.run policy faults q entries).1.map Event.gist ∧
      InStep before (Execution.run policy faults p entries).2
        (Execution.run policy faults q entries).2 := by
  induction entries generalizing p q with
  | nil => exact ⟨rfl, h⟩
  | cons e rest ih =>
    obtain ⟨hgist, hstep⟩ := h.step (hnames e (List.mem_cons_self ..)) hwords
    obtain ⟨hgists, hrun⟩ := ih hstep (fun e' he' => hnames e' (List.mem_cons_of_mem e he')) hwords.2
    rw [run_cons, run_cons, List.map_cons, List.map_cons, hgist, hgists]
    exact ⟨rfl, hrun⟩

/-! ## The two executions of a plan -/

theorem writes_eq_of_gist {σ τ : Type} {x : Execution σ} {y : Execution τ}
    (h : x.events.map Event.gist = y.events.map Event.gist) : x.writes = y.writes := by
  have hview : ∀ events : List Event,
      events.filterMap Event.write = (events.map Event.gist).filterMap (·.2.2) := by
    intro events
    rw [List.filterMap_map]
    rfl
  rw [writes, writes, hview, hview, h]

theorem report_eq_of_gist {σ τ : Type} {x : Execution σ} {y : Execution τ}
    (h : x.events.map Event.gist = y.events.map Event.gist) :
    x.report.map (fun o => (o.entry, o.status)) = y.report.map fun o => (o.entry, o.status) := by
  have hview : ∀ events : List Event,
      (events.map Event.outcome).map (fun o => (o.entry, o.status)) =
        (events.map Event.gist).map fun gist => (gist.1, gist.2.1) := by
    intro events
    rw [List.map_map, List.map_map]
    rfl
  rw [report, report, hview, hview, h]

/-- A ledger and a scratch list of the rows that it shows start in step. -/
theorem inStep_start {rows : List Item} (draws : List Draw)
    (hrows : ∀ i ∈ rows, Ledger.PlainName i.name) :
    let ledger := Ledger.ofItems rows draws
    let list := ScratchList.ofItems ledger.items
    InStep rows ⟨list, list.items, 0⟩ ⟨ledger, ledger.items, 0⟩ := by
  intro ledger list
  -- shown by place and number, the rows are in order of place as well
  have hsorted : ledger.items.Pairwise fun i j => Item.byOrder i j = true := by
    refine ledger.shows_items.ascending.imp fun h => ?_
    simp only [Item.byOrder, decide_eq_true_eq]
    omega
  have hitems : list.items = ledger.items := Item.arrange_of_pairwise hsorted
  refine
    { working := hitems
      attempts := rfl
      inOrder := fun i _ => congrArg _ hitems
      fresh := fun k hk => ?_
      settled := rfl
      plain := hrows
      plainWorking := fun i hi => hrows i (Ledger.mem_items.mp hi)
      rows := ?_ }
  · exact Item.lt_numberAfter (List.mem_map_of_mem (Ledger.mem_items.mpr hk))
  · show List.Forall₂ _ list.items ledger.items
    rw [hitems]
    exact List.forall₂_same.mpr fun i _ => Item.Matches.refl rows i

/-- **A ledger and a scratch list are interchangeable** where a plan is carried
out.  Let the names be ASCII, those on the list with no other blanks than spaces
around them, and let all numbers fit that the ledger is to store.  Then the plan
attempts the same writes on either, whichever of them are struck, its entries
come out alike, and the same rows are shown at the end; only rows that the plan
has made may differ, in their numbers, whatever numbers the ledger draws. -/
theorem ledger_matches_scratchList (policy : FloorPolicy) (faults : Faults) (plan : Plan)
    (rows : List Item) (draws : List Draw) (hrows : ∀ i ∈ rows, Ledger.AsciiName i.name)
    (hplan : ∀ e ∈ plan.entries, ∀ c ∈ e.name, c.toNat < 128)
    (hwords : StoresWords policy faults
      ⟨Ledger.ofItems rows draws, (Ledger.ofItems rows draws).items, 0⟩ plan.entries) :
    let ledger := Ledger.ofItems rows draws
    let list := ScratchList.ofItems ledger.items
    let x := ofPlan policy faults plan ledger.items ledger
    let y := ofPlan policy faults plan list.items list
    x.writes = y.writes ∧
      x.report.map (fun o => (o.entry, o.status)) = y.report.map (fun o => (o.entry, o.status)) ∧
      List.Forall₂ (Item.Matches rows) y.store.items x.store.items := by
  intro ledger list x y
  have hstart : InStep rows ⟨list, list.items, 0⟩ ⟨ledger, ledger.items, 0⟩ :=
    inStep_start draws fun i hi => (hrows i hi).plain
  have hnames : ∀ e ∈ plan.entries, Ledger.PlainName (Text.strip e.name) := fun e he =>
    Ledger.plainName_strip_of_ascii (hplan e he)
  obtain ⟨hgist, hend⟩ := hstart.run hnames hwords
  have hevents : x.events.map Event.gist = y.events.map Event.gist := hgist.symm
  exact ⟨writes_eq_of_gist hevents, report_eq_of_gist hevents, hend.rows⟩

/-- Two rows in one place are called milk here, one of the writes is struck, and
the number of the row that goes is given again by the ledger alone. -/
theorem ledger_matches_scratchList_twoMilks :
    let rows : List Item :=
      [⟨7, " Milk ", 2, none, 0⟩, ⟨9, "tea", 1, some "green", 4⟩, ⟨3, "MILK", 5, none, 0⟩]
    let plan : Plan := ⟨[⟨"Bread", 2, none⟩, ⟨" milk", 1, some "oat"⟩], [⟨"Tea"⟩, ⟨"rice"⟩],
      [⟨"milk", -9⟩, ⟨"tea", 3⟩], []⟩
    let faults : Faults := fun n => if n = 1 then some ⟨.operational, "locked"⟩ else none
    let ledger := Ledger.ofItems rows
    let list := ScratchList.ofItems ledger.items
    let x := ofPlan .deleteAtZero faults plan ledger.items ledger
    let y := ofPlan .deleteAtZero faults plan list.items list
    (∀ i ∈ rows, Ledger.AsciiName i.name) ∧ (∀ e ∈ plan.entries, ∀ c ∈ e.name, c.toNat < 128) ∧
      StoresWords .deleteAtZero faults ⟨ledger, ledger.items, 0⟩ plan.entries ∧
      x.writes = y.writes ∧
      x.report.map (fun o => (o.entry, o.status)) = y.report.map (fun o => (o.entry, o.status)) ∧
      List.Forall₂ (Item.Matches rows) y.store.items x.store.items := by
  intro rows plan faults ledger list x y
  have hrows : ∀ i ∈ rows, Ledger.AsciiName i.name := by decide +kernel
  have hplan : ∀ e ∈ plan.entries, ∀ c ∈ e.name, c.toNat < 128 := by
    have hall : (plan.entries.all fun e => e.name.all fun c => c.toNat < 128) = true := by
      decide +kernel
    simpa only [List.all_eq_true, decide_eq_true_eq] using hall
  have hwords : StoresWords .deleteAtZero faults ⟨ledger, ledger.items, 0⟩ plan.entries := by
    decide +kernel
  exact ⟨hrows, hplan, hwords,
    ledger_matches_scratchList .deleteAtZero faults plan rows [] hrows hplan hwords⟩

end Execution
end SpokenList
