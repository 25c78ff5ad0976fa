import SpokenList.Proofs.DistinctKeys
import SpokenList.Proofs.Rereading

/-! # How an item stands

What a plan means for one item can be said without the list: the entries that
name the item act on its row one after the other, and whatever the plan asks of
other items does not matter (`Standing.after`).  This module proves that a scratch
list with distinct keys follows it, key by key: a step does to the rows what the
entry does to the item that it names and nothing else (`Execution.step_items`,
`Item.withKey?_onRows`), and so a run takes every item to where it stands after
the entries (`Execution.run_standing`).
-/
namespace SpokenList

namespace Entry

/-- The match key of the item that the entry is about. -/
def key (e : Entry) : Text := Text.matchKey e.name

/-- What becomes of a row that the entry names: an adjustment changes its
quantity, to one or to zero at least, or takes it off at zero, as the policy has it;
a removal takes it off; an addition adds its quantity, and its note replaces the one
before unless it is missing or empty. -/
def onRow (policy : FloorPolicy) : Entry → Item → Option Item
  | adjust e, row =>
    let quantity := row.quantity + e.delta
    match policy with
    | .clampToOne => some { row with quantity := max 1 quantity }
    | .clampToZero => some { row with quantity := max 0 quantity }
    | .deleteAtZero => if quantity ≤ 0 then none else some { row with quantity := quantity }
  | remove _, _ => none
  | add e, row =>
    some { row with
      quantity := row.quantity + e.quantity
      note := if e.note = none ∨ e.note = some [] then row.note else e.note }

/-- The row that the entry calls for where there is none. -/
def newRow? (id order : Int) : Entry → Option Item
  | add e => some ⟨id, Text.strip e.name, e.quantity, e.note, order⟩
  | _ => none

end Entry

/-- How an item stands: its row, and whether the plan has put it on the list.
The number and the place of such a row are for the list to choose, and those of
`row` stand for nothing then. -/
structure Standing where
  row : Item
  isNew : Bool
  deriving DecidableEq, Repr

/-- What the entry makes of the item that it names; `none` is an item that is not
on the list. -/
def Entry.actOn (policy : FloorPolicy) (e : Entry) : Option Standing → Option Standing
  | some s => (e.onRow policy s.row).map fun row => ⟨row, s.isNew⟩
  | none => (e.newRow? 0 0).map fun row => ⟨row, true⟩

namespace Standing

/-- The entries that name an item act on it in turn. -/
def afterAll (policy : FloorPolicy) (entries : List Entry) (start : Option Standing) :
    Option Standing :=
  entries.foldl (fun s e => e.actOn policy s) start

/-- How the item of key `k` stands after the entries, having had the row `start`
before: only the entries of that key act on it. -/
def after (policy : FloorPolicy) (entries : List Entry) (k : Text) (start : Option Item) :
    Option Standing :=
  afterAll policy (entries.filter (·.key == k)) (start.map fun row => ⟨row, false⟩)

/-- The row is the one that the standing says. -/
def Describes (s : Standing) (i : Item) : Prop :=
  i.name = s.row.name ∧ i.quantity = s.row.quantity ∧ i.note = s.row.note ∧
    (s.isNew = false → i.id = s.row.id ∧ i.order = s.row.order)

theorem describes_start (start : Option Item) :
    Option.Rel Describes (start.map fun row => ⟨row, false⟩) start := by
  cases start with
  | none => exact .none
  | some i => exact .some ⟨rfl, rfl, rfl, fun _ => ⟨rfl, rfl⟩⟩

end Standing

namespace Entry

variable {policy : FloorPolicy} {e : Entry} {i j : Item} {id order : Int}

/-- An adjustment changes a row as the policy of an execution does. -/
theorem onRow_adjust (policy : FloorPolicy) (e : AdjustEntry) (i : Item) :
    let quantity := policy.apply (i.quantity + e.delta)
    (adjust e).onRow policy i =
      if policy.deletes quantity then none else some { i with quantity := quantity } := by
  intro quantity
  cases policy with
  | deleteAtZero =>
    by_cases hgone : i.quantity + e.delta ≤ 0
    · rw [if_pos (FloorPolicy.deletes_apply.mpr ⟨rfl, hgone⟩)]
      exact if_pos hgone
    · have hkept : quantity = i.quantity + e.delta :=
        Int.max_eq_right (Int.le_of_lt (Int.not_le.mp hgone))
      rw [if_neg fun hdeletes => hgone (FloorPolicy.deletes_apply.mp hdeletes).2, hkept]
      exact if_neg hgone
  | _ => rfl

/-- An addition raises a row as a holder of a list does. -/
theorem onRow_add (policy : FloorPolicy) (e : AddEntry) (i : Item) :
    (add e).onRow policy i = some (i.increased e.quantity e.note) := by
  rw [onRow, Item.increased]
  cases hnote : e.note with
  | none => rfl
  | some note => cases note <;> rfl

/-- An entry changes neither the number of a row, nor its name, nor its place. -/
theorem seat_onRow (h : e.onRow policy i = some j) : j.seat = i.seat := by
  cases e with
  | adjust e =>
    rw [onRow_adjust] at h
    split at h
    · cases h
    · cases h
      rfl
  | remove e => cases h
  | add e =>
    cases h
    rfl

theorem key_newRow (h : e.newRow? id order = some i) : i.key = e.key := by
  cases e with
  | add e =>
    cases h
    exact Text.matchKey_strip e.name
  | _ => cases h

theorem newRow?_of_not_add (h : e.operation ≠ .add) : e.newRow? id order = none := by
  cases e with
  | add e => exact absurd rfl h
  | _ => rfl

/-- An entry does alike with rows that differ in number and place only. -/
theorem describes_onRow {s : Standing} (h : s.Describes i) (e : Entry) :
    Option.Rel Standing.Describes (e.actOn policy (some s)) (e.onRow policy i) := by
  obtain ⟨hname, hquantity, hnote, hseat⟩ := h
  cases e with
  | adjust e =>
    simp only [actOn, onRow_adjust, hquantity]
    split
    · exact .none
    · exact .some ⟨hname, rfl, hnote, hseat⟩
  | remove e => exact .none
  | add e =>
    refine .some ⟨hname, ?_, ?_, hseat⟩
    · simp only [hquantity]
    · simp only [hnote]

theorem describes_newRow (e : Entry) (id order : Int) :
    Option.Rel Standing.Describes (e.actOn policy none) (e.newRow? id order) := by
  cases e with
  | add e => exact .some ⟨rfl, rfl, rfl, fun h => by cases h⟩
  | _ => exact .none

/-! ## What an entry does to the rows -/

/-- What becomes of any row: only those that the entry names are concerned. -/
def onAnyRow (policy : FloorPolicy) (e : Entry) (i : Item) : Option Item :=
  if i.key = e.key then e.onRow policy i else some i

theorem seat_onAnyRow (h : e.onAnyRow policy i = some j) : j.seat = i.seat := by
  unfold onAnyRow at h
  split at h
  · exact seat_onRow h
  · cases h
    rfl

theorem key_onAnyRow (h : e.onAnyRow policy i = some j) : j.key = i.key :=
  Item.key_of_seat (seat_onAnyRow h)

/-- The rows after the entry, if a row that is new gets the number `id`. -/
def onRows (policy : FloorPolicy) (id : Int) (e : Entry) (rows : List Item) : List Item :=
  rows.filterMap (e.onAnyRow policy) ++
    (if (Item.withKey? rows e.key).isSome then none
      else e.newRow? id (Item.nextOrder rows)).toList

variable {rows : List Item} {effect : Effect}

theorem effect?_eq_none_iff :
    e.effect? policy rows = none ↔ e.operation ≠ .add ∧ Item.withKey? rows e.key = none := by
  cases e <;> simp [effect?, operation, Item.find?_eq_withKey?, key, name]

/-- Without a row of its key, an entry leaves all rows as they are. -/
theorem filterMap_onAnyRow_of_missing (h : Item.withKey? rows e.key = none) :
    rows.filterMap (e.onAnyRow policy) = rows := Item.filterMap_of_missing h

theorem onRows_of_unmatched (h : e.effect? policy rows = none) :
    e.onRows policy id rows = rows := by
  obtain ⟨hadd, hnone⟩ := effect?_eq_none_iff.mp h
  rw [onRows, filterMap_onAnyRow_of_missing hnone, newRow?_of_not_add hadd]
  simp

theorem onRows_of_found (h : Item.withKey? rows e.key = some i) :
    e.onRows policy id rows = rows.filterMap (e.onAnyRow policy) := by
  rw [onRows, h]
  exact List.append_nil _

/-- An edit of the row that an entry means, if it does what the entry does. -/
theorem editFirst_eq_onRows {g : Item → Option Item} (hrows : Item.DistinctKeys rows)
    (hi : Item.withKey? rows e.key = some i) (hg : g i = e.onRow policy i) :
    Item.editFirst (Item.isNamed i.name) g rows = e.onRows policy id rows := by
  have hkey : Text.matchKey i.name = e.key := Item.key_of_withKey? hi
  have hedit : ∀ j, Item.find? rows i.name = some j → g j = e.onRow policy j := by
    intro j hj
    rw [Item.find?_eq_withKey?, hkey, hi] at hj
    rw [← Option.some.inj hj, hg]
  rw [onRows_of_found hi, Item.editFirst_eq_filterMap hrows hedit, hkey]
  rfl

/-- **The write of an entry does what the entry means**: it acts on the row of
its key, or puts a row at the end, and leaves the other rows alone. -/
theorem perform_eq_onRows (hrows : Item.DistinctKeys rows) (h : e.effect? policy rows = some effect)
    (id : Int) : effect.write.perform id rows = e.onRows policy id rows := by
  cases e with
  | adjust e =>
    obtain ⟨row, hrow, rfl⟩ := Option.map_eq_some_iff.mp h
    have hfound := Item.find?_own_name hrow
    unfold Effect.ofAdjust
    dsimp only
    split
    · rename_i hdeletes
      rw [Write.perform_of_found (w := .remove row.name) hfound]
      refine editFirst_eq_onRows hrows (e := .adjust e) hrow ?_
      rw [onRow_adjust, if_pos hdeletes]
      rfl
    · rename_i hdeletes
      rw [Write.perform_of_found (w := .adjust row.name _) hfound]
      refine editFirst_eq_onRows hrows (e := .adjust e) hrow ?_
      rw [onRow_adjust, if_neg hdeletes, Write.edit, Item.adjusted_sub]
  | remove e =>
    obtain ⟨row, hrow, rfl⟩ := Option.map_eq_some_iff.mp h
    have hfound := Item.find?_own_name hrow
    show Write.perform id (.remove row.name) rows = _
    rw [Write.perform_of_found (w := .remove row.name) hfound]
    exact editFirst_eq_onRows hrows (e := .remove e) hrow rfl
  | add e =>
    obtain rfl : Effect.ofAdd rows e (Item.find? rows e.name) = effect := Option.some.inj h
    cases hrow : Item.find? rows e.name with
    | some row =>
      have hfound := Item.find?_own_name hrow
      show Write.perform id (.add row.name e.quantity e.note) rows = _
      rw [Write.perform_of_found (w := .add row.name _ _) hfound]
      exact editFirst_eq_onRows hrows (e := .add e) hrow (onRow_add policy e row).symm
    | none =>
      have hmissing : Item.withKey? rows (Entry.add e).key = none := hrow
      have hstripped : Item.find? rows (Text.strip e.name) = none :=
        (Item.find?_strip rows e.name).trans hrow
      show Write.perform id (.add (Text.strip e.name) e.quantity e.note) rows = _
      rw [Write.perform_of_missing (w := .add (Text.strip e.name) _ _) hstripped, onRows,
        filterMap_onAnyRow_of_missing hmissing, hmissing]
      simp [Write.row?, newRow?]

theorem distinctKeys_onRows (h : Item.DistinctKeys rows) :
    Item.DistinctKeys (e.onRows policy id rows) := by
  have hkept : Item.DistinctKeys (rows.filterMap (e.onAnyRow policy)) :=
    h.filterMap fun _ _ => key_onAnyRow
  unfold onRows
  split
  · simpa using hkept
  · rename_i hnone
    have hmissing : Item.withKey? rows e.key = none := by simpa using hnone
    cases hnew : e.newRow? id (Item.nextOrder rows) with
    | none => simpa using hkept
    | some i =>
      rw [filterMap_onAnyRow_of_missing hmissing]
      exact h.append_singleton (by rw [key_newRow hnew, hmissing])

/-- **Keys do not interfere**: an entry acts on the row of its own key. -/
theorem withKey?_onRows (h : Item.DistinctKeys rows) (k : Text) :
    Item.withKey? (e.onRows policy id rows) k =
      if e.key = k then
        match Item.withKey? rows k with
        | some i => e.onRow policy i
        | none => e.newRow? id (Item.nextOrder rows)
      else Item.withKey? rows k := by
  rw [onRows, Item.withKey?_append, Item.withKey?_filterMap (fun _ _ => key_onAnyRow) h]
  by_cases hk : e.key = k
  · subst hk
    rw [if_pos rfl]
    cases hi : Item.withKey? rows e.key with
    | some i =>
      have honRow : e.onAnyRow policy i = e.onRow policy i := if_pos (Item.key_of_withKey? hi)
      rw [Option.bind_some, honRow]
      exact Option.or_none
    | none =>
      cases hnew : e.newRow? id (Item.nextOrder rows) with
      | none => rfl
      | some j =>
        show Item.withKey? [j] e.key = some j
        rw [Item.withKey?_cons, if_pos (key_newRow hnew)]
  · rw [if_neg hk]
    have hnew : Item.withKey? (if (Item.withKey? rows e.key).isSome then none
        else e.newRow? id (Item.nextOrder rows)).toList k = none := by
      rw [Item.withKey?_eq_none_iff, List.mem_map]
      rintro ⟨j, hj, rfl⟩
      split at hj
      · cases hj
      · exact hk (key_newRow (by simpa using hj)).symm
    rw [hnew, Option.or_none]
    cases hi : Item.withKey? rows k with
    | none => rfl
    | some i => exact if_neg fun hik => hk (hik.symm.trans (Item.key_of_withKey? hi))

end Entry

/-! ## What a plan does to the rows -/

namespace Execution

/-- The working copy follows a list whose rows have distinct keys. -/
def Tracks (p : Progress ScratchList) : Prop := Follows p ∧ Item.DistinctKeys p.store.items

variable {policy : FloorPolicy} {p : Progress ScratchList}

theorem tracks_start {l : ScratchList} (h : Item.DistinctKeys l.rows) : Tracks ⟨l, l.items, 0⟩ :=
  ⟨⟨ScratchList.namesInDisplayOrder_of_distinctKeys h, Item.Alike.refl _⟩,
    ScratchList.distinctKeys_items.mpr h⟩

/-- An entry is matched against the copy as it would be against the list. -/
theorem Tracks.asks (h : Tracks p) (policy : FloorPolicy) (e : Entry) :
    (e.effect? policy p.working).map Effect.write =
      (e.effect? policy p.store.items).map Effect.write := by
  have hasks := congrArg (Option.map Prod.fst) (Entry.asks_congr h.1.2 policy e)
  simpa [Option.map_map, Function.comp_def] using hasks

/-- What a step comes to, where no write fails, told from the rows of the list. -/
theorem Tracks.step_cases (h : Tracks p) (policy : FloorPolicy) (e : Entry) :
    (e.effect? policy p.store.items = none ∧
        step policy Faults.none p e = (.unmatched e, p)) ∨
      ∃ x y, e.effect? policy p.store.items = some y ∧
        step policy Faults.none p e =
          (.applied e x, ⟨p.store.apply y.write, x.working, p.attempts + 1⟩) := by
  have hasks := h.asks policy e
  cases hx : e.effect? policy p.working with
  | none =>
    cases hy : e.effect? policy p.store.items with
    | some y => simp [hx, hy] at hasks
    | none => exact Or.inl ⟨rfl, step_of_unmatched hx⟩
  | some x =>
    cases hy : e.effect? policy p.store.items with
    | none => simp [hx, hy] at hasks
    | some y =>
      have hwrite : x.write = y.write := by simpa [hx, hy] using hasks
      have hw : Holder.write x.write (Faults.none p.attempts) p.store =
          (p.store.apply y.write, none) := by rw [hwrite]; rfl
      exact Or.inr ⟨x, y, rfl, step_of_done hx hw⟩

/-- **A step does to the rows what its entry means.** -/
theorem step_items (h : Tracks p) (policy : FloorPolicy) (e : Entry) :
    (step policy Faults.none p e).2.store.items =
      e.onRows policy p.store.nextId p.store.items := by
  obtain ⟨hy, hstep⟩ | ⟨x, y, hy, hstep⟩ := h.step_cases policy e
  · rw [hstep, Entry.onRows_of_unmatched hy]
  · rw [hstep, ← Entry.perform_eq_onRows h.2 hy]
    exact ScratchList.items_apply h.1.1 y.write

/-- The outcome of a step: an addition always goes through, anything else does if
there is a row of its key. -/
theorem outcome_step (h : Tracks p) (policy : FloorPolicy) (e : Entry) :
    (step policy Faults.none p e).1.outcome =
      ⟨e, if e.operation = .add ∨ (Item.withKey? p.store.items e.key).isSome = true then .applied
        else .noMatch, none⟩ := by
  obtain ⟨hy, hstep⟩ | ⟨x, y, hy, hstep⟩ := h.step_cases policy e
  · obtain ⟨hadd, hnone⟩ := Entry.effect?_eq_none_iff.mp hy
    rw [hstep, if_neg (by simp [hadd, hnone])]
    rfl
  · have hmatch : e.operation = .add ∨ (Item.withKey? p.store.items e.key).isSome = true := by
      by_cases hadd : e.operation = .add
      · exact Or.inl hadd
      · refine Or.inr (Option.isSome_iff_ne_none.mpr fun hnone => ?_)
        rw [Entry.effect?_eq_none_iff.mpr ⟨hadd, hnone⟩] at hy
        cases hy
    rw [hstep, if_pos hmatch]
    rfl

theorem Tracks.step (h : Tracks p) (e : Entry) :
    Tracks (Execution.step policy Faults.none p e).2 := by
  refine ⟨h.1.step e, ?_⟩
  rw [step_items h]
  exact Entry.distinctKeys_onRows h.2

theorem Tracks.run (h : Tracks p) (entries : List Entry) :
    Tracks (Execution.run policy Faults.none p entries).2 := by
  induction entries generalizing p with
  | nil => exact h
  | cons e rest ih =>
    rw [run_cons]
    exact ih (h.step e)

/-- **A run takes every item to where it stands after the entries.** -/
theorem run_standing (h : Tracks p) (entries : List Entry) {k : Text} {s : Option Standing}
    (hs : Option.Rel Standing.Describes s (Item.withKey? p.store.items k)) :
    Option.Rel Standing.Describes (Standing.afterAll policy (entries.filter (·.key == k)) s)
      (Item.withKey? (run policy Faults.none p entries).2.store.items k) := by
  induction entries generalizing p s with
  | nil => exact hs
  | cons e rest ih =>
    rw [run_cons]
    have hstep := (congrArg (Item.withKey? · k) (step_items h policy e)).trans
      (Entry.withKey?_onRows h.2 k)
    -- Only the entries of the key are folded; the others leave its row alone.
    by_cases hk : e.key = k
    · rw [List.filter_cons_of_pos (by simp [hk])]
      refine ih (h.step e) ?_
      rw [hstep, if_pos hk]
      revert hs
      generalize Item.withKey? p.store.items k = start
      intro hs
      cases hs with
      | none => exact Entry.describes_newRow ..
      | some hdescribes => exact Entry.describes_onRow hdescribes e
    · rw [List.filter_cons_of_neg (by simp [hk])]
      refine ih (h.step e) ?_
      rw [hstep, if_neg hk]
      exact hs

end Execution
end SpokenList
