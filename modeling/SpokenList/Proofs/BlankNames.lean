import SpokenList.Proofs.Lowering
import SpokenList.Proofs.UnnamedRows

/-! # Blank names

Which keys the rows of a list have can be followed without the rows.  A write that
goes through lands on a row of its key or brings a row of its own
(`Write.Lands`), so an addition leaves its key on the list and takes none away,
and an adjustment or a removal brings none (`Holder.FollowsKeys`).  Additions come
last in a plan, and so a key that no row had is on the list afterwards exactly
when an addition under it was applied (`Execution.new_key_iff`).

The empty key is that of the blank names.  A plan that comes over the wire is
checked for names without characters, but blanks are characters; they are taken
off when the plan is carried out.  So a list whose rows are all named keeps them
so exactly when every addition that is applied names its item
(`Execution.rows_named_iff`), and a plan that is accepted may ask for one that does
not (`Execution.rows_named_lost`).
-/
namespace SpokenList

/-! ## Keys of rows -/

namespace Item

/-- The row has more for a name than blanks. -/
def Named (i : Item) : Prop := Text.strip i.name ≠ []

instance (i : Item) : Decidable i.Named := inferInstanceAs (Decidable (_ ≠ _))

theorem named_iff_key_ne_nil {i : Item} : i.Named ↔ i.key ≠ [] :=
  not_congr Text.lowerFrom_eq_nil.symm

/-- The keys of the rows, in the order in which these stand. -/
def keys (rows : List Item) : List Text := rows.map key

variable {p : Item → Bool} {g : Item → Option Item} {rows : List Item} {i : Item} {k : Text}

theorem mem_keys : k ∈ keys rows ↔ ∃ i ∈ rows, i.key = k := List.mem_map

/-- Rows that are the same in any order have the same keys. -/
theorem mem_keys_congr {xs ys : List Item} (h : ∀ i, i ∈ xs ↔ i ∈ ys) :
    k ∈ keys xs ↔ k ∈ keys ys := by
  simp only [mem_keys, h]

/-- An edit that keeps every row and its key keeps the keys. -/
theorem keys_editFirst (hg : ∀ i, (g i).map key = some i.key) :
    keys (editFirst p g rows) = keys rows := by
  induction rows with
  | nil => rfl
  | cons i rest ih =>
    cases hi : p i with
    | true =>
      obtain ⟨j, hj, hkey⟩ := Option.map_eq_some_iff.mp (hg i)
      rw [editFirst_cons_pos hi, hj]
      show j.key :: keys rest = i.key :: keys rest
      rw [hkey]
    | false =>
      rw [editFirst_cons_neg hi]
      show i.key :: keys (editFirst p g rest) = i.key :: keys rest
      rw [ih]

/-- An edit that keeps the key of every row that it keeps brings no key. -/
theorem mem_keys_of_editFirst (hg : ∀ i j, g i = some j → j.key = i.key)
    (h : k ∈ keys (editFirst p g rows)) : k ∈ keys rows := by
  obtain ⟨j, hj, rfl⟩ := mem_keys.mp h
  rcases mem_editFirst hj with hj | ⟨i, hi, hij⟩
  · exact mem_keys.mpr ⟨j, hj, rfl⟩
  · exact mem_keys.mpr ⟨i, List.mem_of_find?_eq_some hi, (hg i j hij).symm⟩

end Item

/-! ## Writes that go through -/

/-- What rows are after a write, however their holder looks names up: a row of its
key is found and changed or taken off, or what the write brings is put at the end. -/
inductive Write.Lands (w : Write) (rows : List Item) : List Item → Prop where
  | onRow (p : Item → Bool) (i : Item) (hfound : rows.find? p = some i)
    (hkey : i.key = Text.matchKey w.name) : Lands w rows (Item.editFirst p w.edit rows)
  | atEnd (id order : Int) : Lands w rows (rows ++ (w.row? id order).toList)

namespace Write.Lands

variable {w : Write} {rows rows' : List Item} {k : Text}

/-- After an addition its key is there, and every key that was there before. -/
theorem mem_keys_add (h : w.Lands rows rows') (hw : w.operation = .add) :
    k ∈ Item.keys rows' ↔ k ∈ Item.keys rows ∨ k = Text.matchKey w.name := by
  obtain ⟨name, quantity, note, rfl⟩ : ∃ name quantity note, w = .add name quantity note := by
    cases w with
    | add name quantity note => exact ⟨name, quantity, note, rfl⟩
    | _ => cases hw
  cases h with
  | onRow p i hfound hkey =>
    rw [Item.keys_editFirst fun _ => rfl]
    refine ⟨Or.inl, ?_⟩
    rintro (hk | rfl)
    · exact hk
    · exact Item.mem_keys.mpr ⟨i, List.mem_of_find?_eq_some hfound, hkey⟩
  | atEnd id order =>
    have hkey : Item.key ⟨id, Text.strip name, quantity, note, order⟩ = Text.matchKey name :=
      Text.matchKey_strip name
    simp [Item.keys, Write.row?, hkey, Write.name]

/-- Other writes bring no key. -/
theorem mem_keys_of_not_add (h : w.Lands rows rows') (hw : w.operation ≠ .add)
    (hk : k ∈ Item.keys rows') : k ∈ Item.keys rows := by
  cases h with
  | onRow p i hfound hkey => exact Item.mem_keys_of_editFirst (fun _ _ => Write.key_edit) hk
  | atEnd id order =>
    have hrow : w.row? id order = none := by
      cases w with
      | add name quantity note => exact absurd rfl hw
      | _ => rfl
    rwa [hrow, Option.toList_none, List.append_nil] at hk

end Write.Lands

theorem ScratchList.lands_apply (l : ScratchList) (w : Write) : w.Lands l.rows (l.apply w).rows := by
  rw [rows_apply]
  cases hf : Item.find? l.rows w.name with
  | some i =>
    rw [Write.perform_of_found hf]
    exact .onRow _ i hf (Item.key_of_find? hf)
  | none =>
    rw [Write.perform_of_missing hf]
    exact .atEnd _ _

theorem Ledger.lands_written (l : Ledger) (w : Write) : w.Lands l.rows (l.written w).rows := by
  rw [rows_written]
  cases hf : l.findRow? w.name with
  | some row =>
    have hmem : row ∈ l.rows := mem_items.mp (List.mem_of_find?_eq_some hf)
    obtain ⟨i, hi⟩ := Option.isSome_iff_exists.mp
      (List.find?_isSome (p := (· == row)).mpr ⟨row, hmem, beq_self_eq_true row⟩)
    obtain rfl : i = row := eq_of_beq (List.find?_some (p := (· == row)) hi)
    exact .onRow _ i hi (key_of_findRow? hf)
  | none => exact .atEnd _ _

/-! ## Holders -/

namespace Holder

variable {σ : Type} [Holder σ] {settled : σ → Prop}

/-- Every row is named. -/
def AllNamed (s : σ) : Prop := ∀ i ∈ items s, i.Named

instance (s : σ) : Decidable (AllNamed s) := inferInstanceAs (Decidable (∀ i ∈ items s, i.Named))

/-- The keys of the rows that are shown. -/
def keys (s : σ) : List Text := Item.keys (items s)

/-- In the states that `settled` describes, an addition that goes through leaves its
key and all that were there, and another write brings none. -/
structure FollowsKeys (σ : Type) [Holder σ] (settled : σ → Prop) : Prop where
  add : ∀ w fault s k, settled s → (write w fault s).2 = none → w.operation = .add →
    (k ∈ keys (write w fault s).1 ↔ k ∈ keys s ∨ k = Text.matchKey w.name)
  edit : ∀ w fault s k, settled s → (write w fault s).2 = none → w.operation ≠ .add →
    k ∈ keys (write w fault s).1 → k ∈ keys s

/-- A holder on whose rows every write lands follows the keys. -/
theorem FollowsKeys.of_lands (rows : σ → List Item) (hrows : ∀ s i, i ∈ items s ↔ i ∈ rows s)
    (hlands : ∀ w fault s, settled s → (write w fault s).2 = none →
      w.Lands (rows s) (rows (write w fault s).1)) : FollowsKeys σ settled where
  add w fault s k hs hdone hw := by
    rw [keys, keys, Item.mem_keys_congr (hrows _), Item.mem_keys_congr (hrows s)]
    exact (hlands w fault s hs hdone).mem_keys_add hw
  edit w fault s k hs hdone hw := by
    rw [keys, keys, Item.mem_keys_congr (hrows _), Item.mem_keys_congr (hrows s)]
    exact (hlands w fault s hs hdone).mem_keys_of_not_add hw

end Holder

theorem ScratchList.followsKeys : Holder.FollowsKeys ScratchList fun _ => True := by
  refine Holder.FollowsKeys.of_lands rows (fun _ _ => mem_items) ?_
  intro w fault l _ hdone
  obtain rfl : fault = none := ScratchList.failsCleanly.unstruck w fault l trivial hdone
  exact l.lands_apply w

theorem Ledger.followsKeys : Holder.FollowsKeys Ledger Settled := by
  refine Holder.FollowsKeys.of_lands rows (fun _ _ => mem_items) ?_
  intro w fault l hl hdone
  change (l.write w fault).2 = none at hdone
  show w.Lands l.rows (l.write w fault).1.rows
  by_cases haccepts : l.Accepts ⟨w, fault⟩
  · rw [show l.write w fault = _ from write_of_accepts hl haccepts]
    exact l.lands_written w
  · rw [show l.write w fault = _ from write_of_not_accepts hl haccepts] at hdone
    cases hdone

/-! ## Plans -/

/-- An entry asks for an addition if it is one. -/
theorem Entry.operation_write {policy : FloorPolicy} {working : List Item} {e : Entry}
    {x : Effect} (h : e.effect? policy working = some x) :
    x.write.operation = .add ↔ e.operation = .add := by
  cases e with
  | adjust e =>
    obtain ⟨row, -, rfl⟩ := Option.map_eq_some_iff.mp h
    refine iff_of_false ?_ nofun
    unfold Effect.ofAdjust
    dsimp only
    split
    · exact nofun
    · exact nofun
  | remove e =>
    obtain ⟨row, -, rfl⟩ := Option.map_eq_some_iff.mp h
    exact iff_of_false nofun nofun
  | add e =>
    obtain ⟨name, -, hwrite⟩ := Entry.write_add h
    exact iff_of_true (by rw [hwrite]; rfl) rfl

/-- An addition under the key was applied. -/
def Outcome.Brings (k : Text) (o : Outcome) : Prop :=
  o.entry.operation = .add ∧ o.status = .applied ∧ o.entry.key = k

/-- Every addition that was applied names its item. -/
def Report.AddsNamed (r : Report) : Prop :=
  ∀ o ∈ r, o.entry.operation = .add → o.status = .applied → Text.strip o.entry.name ≠ []

instance (r : Report) : Decidable r.AddsNamed :=
  inferInstanceAs (Decidable (∀ o ∈ r, _ → _ → _ ≠ _))

namespace Execution

section Run
variable {σ : Type} [Holder σ] {settled : σ → Prop} {p : Progress σ} {e : Entry}

/-- The write of an entry, if it goes through: a key that it puts on the list is that
of an addition, and an addition takes no key off. -/
theorem mem_keys_write (hkeys : Holder.FollowsKeys σ settled) {policy : FloorPolicy}
    {effect : Effect} (heffect : e.effect? policy p.working = some effect) {fault : Option Fault}
    (hp : settled p.store) (hdone : (Holder.write effect.write fault p.store).2 = none) (k : Text) :
    let store := (Holder.write effect.write fault p.store).1
    (k ∈ Holder.keys store → k ∈ Holder.keys p.store ∨ e.operation = .add ∧ e.key = k) ∧
      (e.operation = .add → k ∈ Holder.keys p.store ∨ e.key = k → k ∈ Holder.keys store) := by
  intro store
  have hkey : Text.matchKey effect.write.name = e.key := Entry.matchKey_write heffect
  constructor
  · intro hk
    by_cases hadd : effect.write.operation = .add
    · rcases (hkeys.add _ _ _ k hp hdone hadd).mp hk with hk | hk
      · exact Or.inl hk
      · exact Or.inr ⟨(Entry.operation_write heffect).mp hadd, (hk.trans hkey).symm⟩
    · exact Or.inl (hkeys.edit _ _ _ k hp hdone hadd hk)
  · intro hentry hk
    have hadd : effect.write.operation = .add := (Entry.operation_write heffect).mpr hentry
    exact (hkeys.add _ _ _ k hp hdone hadd).mpr (hk.imp_right fun hk => (hkey.trans hk).symm)

/-- One entry: what is on the list after it was there before or was brought, and an
addition brings what it brings without taking anything off. -/
theorem mem_keys_step (hσ : Holder.FailsCleanly σ settled) (hkeys : Holder.FollowsKeys σ settled)
    (policy : FloorPolicy) (faults : Faults) (hp : settled p.store) (k : Text) :
    let x := step policy faults p e
    settled x.2.store ∧
      (k ∈ Holder.keys x.2.store → k ∈ Holder.keys p.store ∨ x.1.outcome.Brings k) ∧
      (e.operation = .add → k ∈ Holder.keys p.store ∨ x.1.outcome.Brings k →
        k ∈ Holder.keys x.2.store) := by
  intro x
  obtain ⟨heffect, hstep⟩ | ⟨effect, heffect, ⟨store, hw, hstep⟩ | ⟨store, fault, hw, hstep⟩⟩ :=
    step_cases policy faults p e
  · rw [show x = _ from hstep]
    refine ⟨hp, Or.inl, ?_⟩
    rintro hadd -
    exact absurd hadd (Entry.effect?_eq_none_iff_forall.mp heffect).1
  · have hdone : (Holder.write effect.write (faults p.attempts) p.store).2 = none := by rw [hw]
    have hsettled := hσ.settled_write effect.write (faults p.attempts) _ hp
    obtain ⟨hof, hto⟩ := mem_keys_write hkeys heffect hp hdone k
    rw [hw] at hsettled hof hto
    rw [show x = _ from hstep]
    refine ⟨hsettled, fun hk => (hof hk).imp_right fun ⟨hadd, hkey⟩ => ⟨hadd, rfl, hkey⟩, ?_⟩
    exact fun hadd hk => hto hadd (hk.imp_right fun ⟨_, _, hkey⟩ => hkey)
  · have hfault : (Holder.write effect.write (faults p.attempts) p.store).2 ≠ none := by
      rw [hw]
      exact nofun
    have hstore : store = p.store := by
      rw [← hσ.unchanged _ _ _ hp hfault, hw]
    rw [show x = _ from hstep]
    dsimp only
    rw [hstore]
    refine ⟨hp, Or.inl, ?_⟩
    rintro - (hk | ⟨-, hstatus, -⟩)
    · exact hk
    · cases hstatus

/-- A run of entries puts no key on the list but those that it brings. -/
theorem mem_keys_of_run (hσ : Holder.FailsCleanly σ settled)
    (hkeys : Holder.FollowsKeys σ settled) (policy : FloorPolicy) (faults : Faults)
    (entries : List Entry) (hp : settled p.store) (k : Text) :
    let x := run policy faults p entries
    settled x.2.store ∧
      (k ∈ Holder.keys x.2.store →
        k ∈ Holder.keys p.store ∨ ∃ event ∈ x.1, event.outcome.Brings k) := by
  induction entries generalizing p with
  | nil => exact ⟨hp, Or.inl⟩
  | cons e rest ih =>
    obtain ⟨hfirst, hof, -⟩ := mem_keys_step hσ hkeys policy faults (e := e) hp k
    obtain ⟨hsettled, hrest⟩ := ih hfirst
    rw [run_cons]
    refine ⟨hsettled, fun hk => ?_⟩
    rcases hrest hk with hk | ⟨event, hevent, hbrings⟩
    · rcases hof hk with hk | hbrings
      · exact Or.inl hk
      · exact Or.inr ⟨_, List.mem_cons_self .., hbrings⟩
    · exact Or.inr ⟨event, List.mem_cons_of_mem _ hevent, hbrings⟩

/-- A run of additions keeps the keys that were on the list and all that it brings. -/
theorem mem_keys_run_add (hσ : Holder.FailsCleanly σ settled)
    (hkeys : Holder.FollowsKeys σ settled) (policy : FloorPolicy) (faults : Faults)
    (adds : List AddEntry) (hp : settled p.store) {k : Text}
    (hk : k ∈ Holder.keys p.store ∨
      ∃ event ∈ (run policy faults p (adds.map .add)).1, event.outcome.Brings k) :
    k ∈ Holder.keys (run policy faults p (adds.map .add)).2.store := by
  induction adds generalizing p with
  | nil =>
    rcases hk with hk | ⟨event, hevent, -⟩
    · exact hk
    · cases hevent
  | cons e rest ih =>
    obtain ⟨hfirst, -, hto⟩ := mem_keys_step hσ hkeys policy faults (e := .add e) hp k
    rw [List.map_cons, run_cons] at hk ⊢
    refine ih hfirst ?_
    rcases hk with hk | ⟨event, hevent, hbrings⟩
    · exact Or.inl (hto rfl (Or.inl hk))
    · rcases List.mem_cons.mp hevent with rfl | hevent
      · exact Or.inl (hto rfl (Or.inr hbrings))
      · exact Or.inr ⟨event, hevent, hbrings⟩

/-- Entries other than additions bring no key. -/
theorem not_brings_run (policy : FloorPolicy) (faults : Faults) {entries : List Entry}
    (h : ∀ e ∈ entries, e.operation ≠ .add) (p : Progress σ) (k : Text) :
    ∀ event ∈ (run policy faults p entries).1, ¬ event.outcome.Brings k := by
  rintro event hevent ⟨hadd, -, -⟩
  have hmem : event.outcome.entry ∈ entries := by
    rw [← (accounts_run policy faults entries p).entries]
    exact List.mem_map_of_mem hevent
  exact h _ hmem hadd

/-- **A key that no row had is on the list after a plan exactly when an addition
under it was applied.** -/
theorem new_key_iff (hσ : Holder.FailsCleanly σ settled) (hkeys : Holder.FollowsKeys σ settled)
    (policy : FloorPolicy) (faults : Faults) (plan : Plan) (snapshot : List Item) {start : σ}
    (hstart : settled start) {k : Text} (hk : k ∉ Holder.keys start) :
    let x := ofPlan policy faults plan snapshot start
    k ∈ Holder.keys x.store ↔ ∃ o ∈ x.report, o.Brings k := by
  intro x
  let edits := plan.adjust.map Entry.adjust ++ plan.remove.map Entry.remove
  let first := run policy faults ⟨start, snapshot, 0⟩ edits
  let last := run policy faults first.2 (plan.add.map .add)
  have hx : x = ⟨last.2.store, first.1 ++ last.1⟩ := by
    show ofPlan policy faults plan snapshot start = _
    rw [ofPlan_eq, Plan.entries, run_append]
  obtain ⟨hfirst, hbefore⟩ :=
    mem_keys_of_run hσ hkeys policy faults edits (p := ⟨start, snapshot, 0⟩) hstart k
  obtain ⟨-, hafter⟩ :=
    mem_keys_of_run hσ hkeys policy faults (plan.add.map .add) (p := first.2) hfirst k
  have hedits : ∀ event ∈ first.1, ¬ event.outcome.Brings k := by
    refine not_brings_run policy faults ?_ ⟨start, snapshot, 0⟩ k
    intro e he
    rcases List.mem_append.mp he with he | he
    · obtain ⟨a, -, rfl⟩ := List.mem_map.mp he
      rintro ⟨⟩
    · obtain ⟨r, -, rfl⟩ := List.mem_map.mp he
      rintro ⟨⟩
  have hreport : (∃ o ∈ x.report, o.Brings k) ↔ ∃ event ∈ last.1, event.outcome.Brings k := by
    simp only [hx, report, List.mem_map, exists_exists_and_eq_and, List.mem_append]
    refine exists_congr fun event => and_congr_left fun hbrings => ?_
    exact or_iff_right fun hevent => hedits event hevent hbrings
  rw [hreport, hx]
  constructor
  · intro hmem
    rcases hafter hmem with hmem | hbrought
    · rcases hbefore hmem with hmem | ⟨event, hevent, hbrings⟩
      · exact absurd hmem hk
      · exact absurd hbrings (hedits event hevent)
    · exact hbrought
  · exact fun hbrought => mem_keys_run_add hσ hkeys policy faults plan.add hfirst (Or.inr hbrought)

/-- A list of named rows is one without the empty key. -/
theorem allNamed_iff {s : σ} : Holder.AllNamed s ↔ [] ∉ Holder.keys s := by
  simp only [Holder.AllNamed, Holder.keys, Item.mem_keys, Item.named_iff_key_ne_nil, not_exists,
    not_and, ne_eq]

/-- What is asked of a report is that nothing in it brings the empty key. -/
theorem addsNamed_iff {r : Report} : r.AddsNamed ↔ ¬ ∃ o ∈ r, o.Brings [] := by
  have hblank (o : Outcome) : o.entry.key = [] ↔ Text.strip o.entry.name = [] :=
    Text.lowerFrom_eq_nil
  simp only [Report.AddsNamed, Outcome.Brings, hblank, not_exists, not_and, ne_eq]

/-- The plan leaves rows named that are, exactly if its additions do. -/
theorem allNamed_ofPlan_iff (hσ : Holder.FailsCleanly σ settled)
    (hkeys : Holder.FollowsKeys σ settled) (policy : FloorPolicy) (faults : Faults) (plan : Plan)
    (snapshot : List Item) {start : σ} (hstart : settled start) (hnamed : Holder.AllNamed start) :
    Holder.AllNamed (ofPlan policy faults plan snapshot start).store ↔
      (ofPlan policy faults plan snapshot start).report.AddsNamed := by
  have hnew := new_key_iff hσ hkeys policy faults plan snapshot hstart (allNamed_iff.mp hnamed)
  exact allNamed_iff.trans ((not_congr hnew).trans addsNamed_iff.symm)

end Run

/-- **Rows stay named exactly if every addition that is applied names its item.**
This holds of a scratch list and of a ledger over any rows, whatever rows the plan
is matched against, whatever the plan asks for and whichever writes fail. -/
theorem rows_named_iff (policy : FloorPolicy) (faults : Faults) (plan : Plan)
    (snapshot : List Item) :
    (∀ l : ScratchList, Holder.AllNamed l →
      (Holder.AllNamed (ofPlan policy faults plan snapshot l).store ↔
        (ofPlan policy faults plan snapshot l).report.AddsNamed)) ∧
      ∀ (rows : List Item) (draws : List Draw), Holder.AllNamed (Ledger.ofItems rows draws) →
        (Holder.AllNamed (ofPlan policy faults plan snapshot (Ledger.ofItems rows draws)).store ↔
          (ofPlan policy faults plan snapshot (Ledger.ofItems rows draws)).report.AddsNamed) :=
  ⟨fun _ => allNamed_ofPlan_iff ScratchList.failsCleanly ScratchList.followsKeys policy faults plan
      snapshot trivial,
    fun rows draws => allNamed_ofPlan_iff Ledger.failsCleanly Ledger.followsKeys policy faults plan
      snapshot (Ledger.settled_ofItems rows draws)⟩

/-- Blanks around a name do no harm, and a blank name does none if its write fails. -/
theorem rows_named_blankFails :
    let plan : Plan := ⟨[⟨"\u3000Oat milk\t", 2, none⟩, ⟨" ", 1, none⟩], [], [⟨"TEA", -1⟩], []⟩
    let faults : Faults := fun n => if n = 2 then some ⟨.runtime, []⟩ else none
    let rows : List Item := [⟨1, "tea", 3, none, 0⟩]
    Holder.AllNamed (ofPlan .clampToOne faults plan rows (ScratchList.ofItems rows)).store ∧
      Holder.AllNamed (ofPlan .clampToOne faults plan rows (Ledger.ofItems rows)).store := by
  intro plan faults rows
  have h := rows_named_iff .clampToOne faults plan rows
  exact ⟨(h.1 (ScratchList.ofItems rows) (by decide +kernel)).mpr (by decide +kernel),
    (h.2 rows [] (by decide +kernel)).mpr (by decide +kernel)⟩

/-- A name of one blank is a name on the wire, and none on the list. -/
theorem rows_named_lost :
    ∃ plan, Plan.ofJson .standard .document
        (.objectOf [("add", .list [.objectOf [("name", .text " ")]])]) = .ok plan ∧
      ¬ Holder.AllNamed (ofPlan .clampToOne .none plan [] (ScratchList.ofItems [])).store ∧
      ¬ Holder.AllNamed (ofPlan .clampToOne .none plan [] (Ledger.ofItems [])).store := by
  refine ⟨⟨[⟨" ", 1, none⟩], [], [], []⟩, rfl, ?_, ?_⟩
  · decide +kernel
  · decide +kernel

end Execution
end SpokenList
