import SpokenList.Proofs.Commands
import SpokenList.Proofs.Mentions
import SpokenList.Proofs.UnnamedRows

/-! # Adding and removing again

Items that are on no row yet are added as new rows at the end, and each is the only
row of its name; so a command that names them all to be removed, in whatever order,
takes just these rows off again (`Execution.added_then_removed`).

What a holder has to provide for this is `Holder.Keeps`: with room for new rows, an
addition that finds no row does to the rows that are shown what it does to any list
of rows, and so does a removal that finds the only row of a name.  A ledger has
room as long as the quantities and the places of the new rows fit a word
(`Ledger.HasRoomFor`); that it looks names up by a rule of its own makes no difference,
since the names are in lower case (`Utterance.PlainName.plain`).

The run of the additions is followed with the working copy alike to the list
(`Execution.run_additions`), that of the removals with the rows that are still to
go (`Execution.run_removals`).
-/
namespace SpokenList

/-! ## The only row of a name -/

namespace Item

variable {name : Text} {rows before after : List Item} {i : Item}

theorem filter_isNamed_of_sole (hi : i.key = Text.matchKey name)
    (hothers : ∀ j ∈ before ++ after, j.key ≠ Text.matchKey name) :
    (before ++ i :: after).filter (isNamed name) = [i] := by
  have hnone {part : List Item} (h : ∀ j ∈ part, j.key ≠ Text.matchKey name) :
      part.filter (isNamed name) = [] :=
    List.filter_eq_nil_iff.mpr fun j hj hnamed => h j hj (beq_iff_eq.mp hnamed)
  obtain ⟨hbefore, hafter⟩ := List.forall_mem_append.mp hothers
  have hnamed : isNamed name i = true := beq_iff_eq.mpr hi
  rw [List.filter_append, List.filter_cons_of_pos hnamed, hnone hbefore, hnone hafter,
    List.nil_append]

theorem find?_of_filter (h : rows.filter (isNamed name) = [i]) : find? rows name = some i := by
  rw [find?, ← List.head?_filter, h, List.head?_cons]

end Item

namespace Write

variable {name : Text} {rows before after : List Item} {i : Item}

/-- A removal takes the only row of its name off. -/
theorem perform_remove_of_sole (id : Int) (hi : i.key = Text.matchKey name)
    (hothers : ∀ j ∈ before ++ after, j.key ≠ Text.matchKey name) :
    (Write.remove name).perform id (before ++ i :: after) = before ++ after := by
  have hfound := Item.find?_of_filter (Item.filter_isNamed_of_sole hi hothers)
  have hbefore : ∀ j ∈ before, Item.isNamed name j = false := fun j hj =>
    beq_false_of_ne (hothers j (List.mem_append_left _ hj))
  rw [perform_of_found (w := .remove name) hfound]
  exact Item.editFirst_append hbefore (beq_iff_eq.mpr hi)

end Write

/-! ## Holders -/

/-- In the states with room for new rows of some quantities, an addition to no row and
a removal of the only row of a plain name do to the rows that are shown what they do
to any list of rows. -/
structure Holder.Keeps (σ : Type) [Holder σ] (room : List Int → σ → Prop) : Prop where
  add : ∀ {s : σ} {q qs name} (note), room (q :: qs) s → Item.find? (items s) name = none →
    ∃ s' id, write (.add name q note) none s = (s', none) ∧ room qs s' ∧
      items s' = (Write.add name q note).perform id (items s)
  remove : ∀ {s : σ} {name i}, room [] s → (items s).filter (Item.isNamed name) = [i] →
    Ledger.PlainName i.name →
    ∃ s' id, write (.remove name) none s = (s', none) ∧ room [] s' ∧
      items s' = (Write.remove name).perform id (items s)

theorem ScratchList.keeps : Holder.Keeps ScratchList fun _ _ => True where
  add {l q qs name} note _ hmissing := by
    exact ⟨_, l.nextId, rfl, trivial, items_apply_of_missing (w := .add name q note) hmissing⟩
  remove {l name i} _ hsole _ := by
    change l.items.filter (Item.isNamed name) = [i] at hsole
    have hperm := (Item.arrange_perm Item.byOrder l.rows).filter (Item.isNamed name)
    have hsame : l.items.filter (Item.isNamed name) = l.rows.filter (Item.isNamed name) := by
      rw [hsole]
      exact (List.perm_singleton.mp (hperm.symm.trans (List.Perm.of_eq hsole))).symm
    exact ⟨_, l.nextId, rfl, trivial, items_apply_of_filter (w := .remove name) hsame⟩

namespace Ledger

/-- Quantities fit a word each, and so do the places of as many new rows. -/
def HasRoomFor (quantities : List Int) (rows : List Item) : Prop :=
  (∀ q ∈ quantities, InWord q) ∧
    ∀ k < quantities.length, InWord (Item.nextOrder rows + k)

instance (quantities : List Int) (rows : List Item) : Decidable (HasRoomFor quantities rows) :=
  inferInstanceAs (Decidable (_ ∧ _))

/-- A new row takes the room of one. -/
theorem HasRoomFor.tail {q : Int} {qs : List Int} {rows : List Item} {i : Item}
    (h : HasRoomFor (q :: qs) rows) (horder : i.order = Item.nextOrder rows) :
    HasRoomFor qs (rows ++ [i]) := by
  have hnextOrder : Item.nextOrder (rows ++ [i]) = Item.nextOrder rows + 1 := by
    rw [Item.nextOrder, List.map_append, List.map_singleton, horder]
    exact Item.numberAfter_append 0 _
  refine ⟨fun n hn => h.1 n (List.mem_cons_of_mem q hn), fun k hk => ?_⟩
  have hnext := h.2 (k + 1) (by simpa using hk)
  rw [hnextOrder, Int.add_assoc, Int.add_comm 1]
  exact hnext

theorem keeps : Holder.Keeps Ledger fun qs l => l.Settled ∧ HasRoomFor qs l.rows where
  add {l q qs name} note hroom hmissing := by
    obtain ⟨hsettled, hroom⟩ := hroom
    change Item.find? l.items name = none at hmissing
    have hfind : l.findRow? name = Item.find? l.items name :=
      findRow?_of_plain fun i hi => by
        rw [hmissing] at hi
        cases hi
    have hnone : l.findRow? name = none := hfind.trans hmissing
    have hplace := hroom.2 0 (Nat.succ_pos _)
    rw [Int.natCast_zero, Int.add_zero] at hplace
    have haccepts : l.Accepts ⟨.add name q note, none⟩ := by
      simp only [Accepts, Write.name, hnone]
      exact ⟨trivial, hroom.1 q (List.mem_cons_self ..), hplace⟩
    have hrows : (l.written (.add name q note)).rows =
        l.rows ++ [⟨l.newNumber.1, Text.strip name, q, note, Item.nextOrder l.rows⟩] := by
      rw [rows_written, Write.name, hnone]
      rfl
    refine ⟨_, _, write_of_accepts hsettled haccepts, ⟨rfl, ?_⟩, items_written_of_findRow? hfind⟩
    show HasRoomFor qs (l.written (.add name q note)).rows
    rw [hrows]
    exact hroom.tail rfl
  remove {l name i} hroom hsole hplain := by
    obtain ⟨hsettled, -⟩ := hroom
    change l.items.filter (Item.isNamed name) = [i] at hsole
    have hfind : l.findRow? name = Item.find? l.items name :=
      findRow?_of_plain fun j hj => by
        rw [Item.find?_of_filter hsole] at hj
        exact Option.some.inj hj ▸ hplain
    have haccepts : l.Accepts ⟨.remove name, none⟩ := ⟨rfl, trivial⟩
    have hnoNew : HasRoomFor [] (l.written (.remove name)).rows :=
      ⟨List.forall_mem_nil _, fun k hk => absurd hk (Nat.not_lt_zero k)⟩
    exact ⟨_, _, write_of_accepts hsettled haccepts, ⟨rfl, hnoNew⟩, items_written_of_findRow? hfind⟩

end Ledger

/-! ## Plain names -/

namespace Utterance

variable {limits : Limits} {name : Text}

theorem PlainName.strip (h : PlainName limits name) : Text.strip name = name :=
  Text.trim_eq_self_iff.mpr h.unbroken.trimmed

theorem PlainName.lowered (h : PlainName limits name) : ∀ c ∈ name, Text.Lowered c := by
  intro c hc
  rw [← h.normalize] at hc
  exact lowered_of_mem_normalize hc

theorem PlainName.matchKey (h : PlainName limits name) : Text.matchKey name = name := by
  rw [Text.matchKey, h.strip]
  exact Text.lowerFrom_of_lowered h.lowered

theorem PlainName.plain (h : PlainName limits name) : Ledger.PlainName name := by
  rw [← h.strip, Ledger.plainName_strip_iff, h.strip]
  exact fun c hc _ => h.lowered c hc

/-! ## The commands -/

/-- The command to add so much of each item. -/
def addCommand (items : List (Int × Text)) : Text :=
  "add " ++ Text.join ", " (items.map fun x => Text.ofInt x.1 ++ ' ' :: x.2)

/-- The command to remove the items of these names. -/
def removeCommand (names : List Text) : Text := "remove " ++ Text.join ", " names

/-- A plain name can be told from the quantity before it: it does not start with a unit. -/
def Countable (limits : Limits) (x : Int × Text) : Prop :=
  (1 ≤ x.1 ∧ x.1 ≤ limits.quantity) ∧ PlainName limits x.2 ∧
    ∀ w ∈ (Text.words x.2).head?, w ∉ unitWords

instance (limits : Limits) (x : Int × Text) : Decidable (Countable limits x) :=
  inferInstanceAs (Decidable (_ ∧ _ ∧ _))

theorem compile_addCommand {items : List (Int × Text)} (hne : items ≠ [])
    (h : ∀ x ∈ items, Countable limits x) :
    compile limits (addCommand items) =
      ⟨items.map fun x => ⟨x.2, x.1, none⟩, [], [], addCommand items⟩ := by
  let mention (x : Int × Text) : Mention := ⟨Text.ofInt x.1, none, ⟨x.2, x.1, none⟩⟩
  have hclear : ∀ x ∈ items, (mention x).Clear limits := by
    intro x hx
    obtain ⟨⟨hone, hle⟩, hname, hunit⟩ := h x hx
    exact ⟨Or.inl rfl, hone, hle, nofun, hname, fun _ => hunit, nofun⟩
  have htext (x : Int × Text) : Text.ofInt x.1 ++ ' ' :: x.2 = (mention x).text := by
    show _ = Text.join [' '] [Text.ofInt x.1, x.2]
    rw [Text.join_cons _ (List.cons_ne_nil _ _), Text.join_singleton]
  have hparts : ∀ part ∈ items.map fun x => Text.ofInt x.1 ++ ' ' :: x.2, Unbroken part := by
    intro part hpart
    obtain ⟨x, hx, rfl⟩ := List.mem_map.mp hpart
    rw [htext]
    exact (hclear x hx).unbroken
  have hentry : ∀ x ∈ items, addEntries limits (Text.ofInt x.1 ++ ' ' :: x.2) =
      [⟨x.2, x.1, none⟩] := by
    intro x hx
    have hrun := Mention.addEntries_run (List.forall_mem_singleton.mpr (hclear x hx))
    rw [List.map_singleton, Text.join_singleton, ← htext] at hrun
    exact hrun
  have hadd : (items.map fun x => Text.ofInt x.1 ++ ' ' :: x.2).flatMap (addEntries limits) =
      items.map fun x => ⟨x.2, x.1, none⟩ := by
    rw [List.flatMap_map, List.flatMap_congr hentry, List.map_eq_flatMap]
  have hplan := compile_add limits (Text.join ", " (items.map fun x => Text.ofInt x.1 ++ ' ' :: x.2))
  rw [Intent.plan, segments_join_comma (by simpa using hne) hparts, hadd] at hplan
  exact hplan

theorem compile_removeCommand {names : List Text} (hne : names ≠ [])
    (h : ∀ name ∈ names, WholeName name) :
    compile limits (removeCommand names) =
      ⟨[], names.map RemoveEntry.mk, [], removeCommand names⟩ := by
  have hnames : itemNames (normalize (Text.join ", " names)) = names :=
    itemNames_eq_self (segments_join_comma hne fun n hn => (h n hn).toUnbroken) h
  have hplan := compile_removal limits (v := "remove") (by decide) (Text.join ", " names)
  rw [hnames] at hplan
  exact hplan

end Utterance

/-! ## Carrying the commands out -/

namespace Execution

section Run
variable {σ : Type} [Holder σ] {room : List Int → σ → Prop} {p : Progress σ}

/-- The outcome of an entry that was carried out. -/
def done (e : Entry) : Outcome := ⟨e, .applied, none⟩

/-- An addition of an item that no row has goes through, and puts its row at the end. -/
theorem step_addition (hσ : Holder.Keeps σ room) (policy : FloorPolicy) {e : AddEntry}
    {quantities : List Int} (hroom : room (e.quantity :: quantities) p.store)
    (hworking : Item.Alike p.working (Holder.items p.store))
    (hnew : ∀ i ∈ Holder.items p.store, i.key ≠ Text.matchKey e.name) :
    let x := step policy .none p (.add e)
    x.1.outcome = done (.add e) ∧ room quantities x.2.store ∧
      Item.Alike x.2.working (Holder.items x.2.store) ∧
      ∃ i : Item, i.name = Text.strip e.name ∧
        Holder.items x.2.store = Holder.items p.store ++ [i] := by
  have hmissing : Item.find? (Holder.items p.store) e.name = none := Item.find?_eq_none_iff.mpr hnew
  have hcopy : Item.find? p.working e.name = none := by
    have hfind := hworking.find? e.name
    rw [hmissing] at hfind
    exact Option.map_eq_none_iff.mp hfind
  have heffect : (Entry.add e).effect? policy p.working = some (Effect.ofAdd p.working e none) := by
    rw [Entry.effect?, hcopy]
  have hstripped : Item.find? (Holder.items p.store) (Text.strip e.name) = none :=
    (Item.find?_strip _ e.name).trans hmissing
  obtain ⟨store, id, hwrite, hroom', hitems⟩ := hσ.add e.note hroom hstripped
  have hworking' : Item.Alike (Effect.ofAdd p.working e none).working (Holder.items store) := by
    rw [Entry.working_eq_perform heffect, hitems]
    exact hworking.perform _ 0 id
  rw [Write.perform_add_of_missing id _ _ hstripped, Text.strip_strip] at hitems
  rw [step_of_done heffect hwrite]
  exact ⟨rfl, hroom', hworking', _, rfl, hitems⟩

/-- A removal of the only row of a plain name goes through, and leaves the other rows. -/
theorem step_removal (hσ : Holder.Keeps σ room) (policy : FloorPolicy) {before after : List Item}
    {i : Item} (hroom : room [] p.store) (hworking : p.working = Holder.items p.store)
    (hitems : Holder.items p.store = before ++ i :: after)
    (hothers : ∀ j ∈ before ++ after, j.key ≠ i.key) (hplain : Ledger.PlainName i.name) :
    let x := step policy .none p (.remove ⟨i.name⟩)
    x.1.outcome = done (.remove ⟨i.name⟩) ∧ room [] x.2.store ∧
      x.2.working = Holder.items x.2.store ∧ Holder.items x.2.store = before ++ after := by
  have hsole : (Holder.items p.store).filter (Item.isNamed i.name) = [i] := by
    rw [hitems]
    exact Item.filter_isNamed_of_sole rfl hothers
  have heffect : (Entry.remove ⟨i.name⟩).effect? policy p.working =
      some (Effect.ofRemove p.working i) := by
    rw [Entry.effect?, hworking, Item.find?_of_filter hsole]
    rfl
  have hperform (id : Int) :
      (Write.remove i.name).perform id (Holder.items p.store) = before ++ after := by
    rw [hitems]
    exact Write.perform_remove_of_sole id rfl hothers
  obtain ⟨store, id, hwrite, hroom', hitems'⟩ := hσ.remove hroom hsole hplain
  rw [hperform] at hitems'
  have hworking' : (Effect.ofRemove p.working i).working = Holder.items store := by
    rw [Entry.working_eq_perform heffect, hworking, hitems']
    exact hperform 0
  rw [step_of_done heffect hwrite]
  exact ⟨rfl, hroom', hworking', hitems'⟩

/-- Additions of items that no row has, under different keys, all go through, and put
their rows at the end. -/
theorem run_additions (hσ : Holder.Keeps σ room) (policy : FloorPolicy) (adds : List AddEntry)
    (hroom : room (adds.map AddEntry.quantity) p.store)
    (hworking : Item.Alike p.working (Holder.items p.store))
    (hnew : ∀ e ∈ adds, ∀ i ∈ Holder.items p.store, i.key ≠ Text.matchKey e.name)
    (hdistinct : (adds.map fun e => Text.matchKey e.name).Nodup) :
    let x := run policy .none p (adds.map .add)
    x.1.map Event.outcome = adds.map (fun e => done (.add e)) ∧ room [] x.2.store ∧
      ∃ new, Holder.items x.2.store = Holder.items p.store ++ new ∧
        new.map Item.name = adds.map fun e => Text.strip e.name := by
  induction adds generalizing p with
  | nil => exact ⟨rfl, hroom, [], (List.append_nil _).symm, rfl⟩
  | cons e rest ih =>
    obtain ⟨hhere, hothers⟩ := List.forall_mem_cons.mp hnew
    obtain ⟨hapart, hrest⟩ := List.nodup_cons.mp hdistinct
    obtain ⟨houtcome, hroom', hworking', i, hname, hitems⟩ :=
      step_addition hσ policy hroom hworking hhere
    -- the row that has come has the key of this entry only
    have hnew' : ∀ e' ∈ rest, ∀ j ∈ Holder.items (step policy .none p (.add e)).2.store,
        j.key ≠ Text.matchKey e'.name := by
      intro e' he' j hj
      rw [hitems] at hj
      rcases List.mem_append.mp hj with hj | hj
      · exact hothers e' he' j hj
      · rw [List.mem_singleton.mp hj, Item.key, hname, Text.matchKey_strip]
        exact fun hkey => hapart (List.mem_map.mpr ⟨e', he', hkey.symm⟩)
    obtain ⟨hreport, hroom'', new, hafter, hnames⟩ := ih hroom' hworking' hnew' hrest
    rw [List.map_cons, run_cons]
    refine ⟨congrArg₂ List.cons houtcome hreport, hroom'', i :: new, ?_,
      congrArg₂ List.cons hname hnames⟩
    rw [hafter, hitems, List.append_assoc, List.singleton_append]

/-- Removals of the rows `new` by their names, in whatever order, all go through and
leave the other rows. -/
theorem run_removals (hσ : Holder.Keeps σ room) (policy : FloorPolicy) {names : List Text}
    {base new : List Item} (hroom : room [] p.store) (hworking : p.working = Holder.items p.store)
    (hitems : Holder.items p.store = base ++ new) (hnew : (new.map Item.name).Perm names)
    (hnames : ∀ n ∈ names, Text.matchKey n = n ∧ Ledger.PlainName n) (hdistinct : names.Nodup)
    (hbase : ∀ n ∈ names, ∀ i ∈ base, i.key ≠ n) :
    let x := run policy .none p ((names.map RemoveEntry.mk).map .remove)
    x.1.map Event.outcome = names.map (fun n => done (.remove ⟨n⟩)) ∧
      Holder.items x.2.store = base := by
  induction names generalizing p new with
  | nil =>
    obtain rfl : new = [] := List.map_eq_nil_iff.mp hnew.eq_nil
    exact ⟨rfl, hitems.trans (List.append_nil base)⟩
  | cons n rest ih =>
    obtain ⟨⟨hkey, hplain⟩, hrestNames⟩ := List.forall_mem_cons.mp hnames
    obtain ⟨hapart, hrestDistinct⟩ := List.nodup_cons.mp hdistinct
    obtain ⟨hbaseHere, hbaseRest⟩ := List.forall_mem_cons.mp hbase
    obtain ⟨i, hi, rfl⟩ := List.mem_map.mp (hnew.mem_iff.mpr (List.mem_cons_self ..))
    obtain ⟨before, after, rfl⟩ := List.append_of_mem hi
    have hremaining : ((before ++ after).map Item.name).Perm rest := by
      have hmiddle : (before ++ i :: after).Perm (i :: (before ++ after)) := List.perm_middle
      exact ((hmiddle.map Item.name).symm.trans hnew).cons_inv
    have hothers : ∀ j ∈ (base ++ before) ++ after, j.key ≠ i.key := by
      intro j hj
      rw [show i.key = i.name from hkey]
      rw [List.append_assoc] at hj
      rcases List.mem_append.mp hj with hj | hj
      · exact hbaseHere j hj
      · have hmem : j.name ∈ rest := hremaining.mem_iff.mp (List.mem_map_of_mem hj)
        rw [Item.key, (hrestNames _ hmem).1]
        exact fun hsame => hapart (hsame ▸ hmem)
    rw [← List.append_assoc] at hitems
    obtain ⟨houtcome, hroom', hworking', hitems'⟩ :=
      step_removal hσ policy hroom hworking hitems hothers hplain
    rw [List.append_assoc] at hitems'
    obtain ⟨hreport, hafter⟩ := ih hroom' hworking' hitems' hremaining hrestNames hrestDistinct
      hbaseRest
    rw [List.map_cons, List.map_cons, run_cons]
    exact ⟨congrArg₂ List.cons houtcome hreport, hafter⟩

end Run

/-- Adding the items and then removing what is named, each time matched against the
rows as they are shown then and with no write struck: every entry is applied, and at
the end the rows are shown that were shown at first. -/
def Restores {σ : Type} [Holder σ] (limits : Limits) (policy : FloorPolicy)
    (items : List (Int × Text)) (names : List Text) (start : σ) : Prop :=
  let added := ofPlan policy .none (Utterance.compile limits (Utterance.addCommand items))
    (Holder.items start) start
  let removed := ofPlan policy .none (Utterance.compile limits (Utterance.removeCommand names))
    (Holder.items added.store) added.store
  added.report = items.map (fun x => done (.add ⟨x.2, x.1, none⟩)) ∧
    removed.report = names.map (fun n => done (.remove ⟨n⟩)) ∧
    Holder.items removed.store = Holder.items start

theorem restores {σ : Type} [Holder σ] {room : List Int → σ → Prop} (hσ : Holder.Keeps σ room)
    {limits : Limits} (policy : FloorPolicy) {items : List (Int × Text)} {names : List Text}
    {start : σ} (hne : items ≠ []) (hitems : ∀ x ∈ items, Utterance.Countable limits x)
    (hdistinct : (items.map Prod.snd).Nodup) (hnames : names.Perm (items.map Prod.snd))
    (hnew : ∀ x ∈ items, ∀ i ∈ Holder.items start, i.key ≠ Text.matchKey x.2)
    (hroom : room (items.map Prod.fst) start) : Restores limits policy items names start := by
  have hplain : ∀ n ∈ names, Utterance.PlainName limits n := by
    intro n hn
    obtain ⟨x, hx, rfl⟩ := List.mem_map.mp (hnames.mem_iff.mp hn)
    exact (hitems x hx).2.1
  have hnamesNe : names ≠ [] := by
    rintro rfl
    exact hne (List.map_eq_nil_iff.mp hnames.symm.eq_nil)
  have hkeys : items.map (fun x => Text.matchKey x.2) = items.map Prod.snd :=
    List.map_congr_left fun x hx => (hitems x hx).2.1.matchKey
  have hstripped : items.map (fun x => Text.strip x.2) = items.map Prod.snd :=
    List.map_congr_left fun x hx => (hitems x hx).2.1.strip
  unfold Restores
  rw [Utterance.compile_addCommand hne hitems,
    Utterance.compile_removeCommand hnamesNe fun n hn => ⟨(hplain n hn).unbroken, (hplain n hn).itemName⟩]
  intro added removed
  obtain ⟨haddReport, hroom', new, hafter, hnewNames⟩ :=
    run_additions hσ policy (items.map fun x => ⟨x.2, x.1, none⟩)
      (p := ⟨start, Holder.items start, 0⟩) (by rwa [List.map_map]) (Item.Alike.refl _)
      (List.forall_mem_map.mpr hnew) (by rw [List.map_map]; exact hkeys ▸ hdistinct)
  have hnewPerm : (new.map Item.name).Perm names := by
    rw [hnewNames, List.map_map]
    exact (List.Perm.of_eq hstripped).trans hnames.symm
  have hremoved :=
    run_removals hσ policy (p := ⟨added.store, Holder.items added.store, 0⟩) hroom' rfl hafter
      hnewPerm (fun n hn => ⟨(hplain n hn).matchKey, (hplain n hn).plain⟩)
      (hnames.nodup_iff.mpr hdistinct) (by
        intro n hn i hi
        obtain ⟨x, hx, rfl⟩ := List.mem_map.mp (hnames.mem_iff.mp hn)
        exact (hitems x hx).2.1.matchKey ▸ hnew x hx i hi)
  -- the entries of the plan have those to be added, of which there are none, behind these
  rw [← List.append_nil ((names.map RemoveEntry.mk).map Entry.remove)] at hremoved
  exact ⟨haddReport.trans List.map_map, hremoved⟩

/-- **What was added can be removed again.**  Let a command add items of plain names,
all different, that no row has, and another remove the items of these names, in
whatever order.  Then every entry of both is applied, and the list is shown at the
end as it was shown at first: a scratch list in every case, and a ledger if the
quantities and the places of the new rows fit a word, whatever numbers it draws. -/
theorem added_then_removed (limits : Limits) (policy : FloorPolicy) {items : List (Int × Text)}
    {names : List Text} (hne : items ≠ []) (hitems : ∀ x ∈ items, Utterance.Countable limits x)
    (hdistinct : (items.map Prod.snd).Nodup) (hnames : names.Perm (items.map Prod.snd)) :
    (∀ l : ScratchList, (∀ x ∈ items, ∀ i ∈ l.rows, i.key ≠ Text.matchKey x.2) →
        Restores limits policy items names l) ∧
      ∀ (rows : List Item) (draws : List Draw),
        (∀ x ∈ items, ∀ i ∈ rows, i.key ≠ Text.matchKey x.2) →
        Ledger.HasRoomFor (items.map Prod.fst) rows →
          Restores limits policy items names (Ledger.ofItems rows draws) := by
  constructor
  · intro l hnew
    exact restores ScratchList.keeps policy hne hitems hdistinct hnames
      (fun x hx i hi => hnew x hx i (ScratchList.mem_items.mp hi)) trivial
  · intro rows draws hnew hroom
    exact restores Ledger.keeps policy hne hitems hdistinct hnames
      (fun x hx i hi => hnew x hx i (Ledger.mem_items.mp hi))
      ⟨Ledger.settled_ofItems rows draws, hroom⟩

/-- Other rows may share a name, and stand in one place. -/
theorem added_then_removed_eggsFirst :
    let items : List (Int × Text) := [(2, "oat milk"), (999, "αυγά"), (1, "7up")]
    let names : List Text := ["αυγά", "7up", "oat milk"]
    let rows : List Item :=
      [⟨7, " Milk ", 2, none, 3⟩, ⟨9, "ΑΥΓΌ", 1, some "green", 0⟩, ⟨3, "MILK", -5, none, 3⟩]
    Restores .standard .deleteAtZero items names (ScratchList.ofItems rows) ∧
      Restores .standard .clampToZero items names (Ledger.ofItems rows) := by
  intro items names rows
  have hne : items ≠ [] := List.cons_ne_nil _ _
  have hitems : ∀ x ∈ items, Utterance.Countable .standard x := by decide +kernel
  have hdistinct : (items.map Prod.snd).Nodup := by decide +kernel
  have hnames : names.Perm (items.map Prod.snd) := by decide +kernel
  have hnew : ∀ x ∈ items, ∀ i ∈ rows, i.key ≠ Text.matchKey x.2 := by decide +kernel
  exact ⟨(added_then_removed .standard .deleteAtZero hne hitems hdistinct hnames).1 _ hnew,
    (added_then_removed .standard .clampToZero hne hitems hdistinct hnames).2 rows [] hnew
      (by decide +kernel)⟩

end Execution
end SpokenList
