import SpokenList.Proofs.WorkingCopy

/-! # Rows of one name

A name means rows by its key, so what becomes of the rows of a key can be told
without the others.  A write changes the first row of its own key
(`Write.ofKey_perform_cons`), or puts one there where there is none
(`Write.ofKey_perform_nil`), and it does not show among rows of other keys
(`Write.filter_perform`).
-/
namespace SpokenList

namespace Item

variable {rows : List Item} {name k : Text} {i : Item}

/-- The rows of a key, in the order in which they stand. -/
def ofKey (k : Text) (rows : List Item) : List Item := rows.filter (·.key == k)

theorem mem_ofKey : i ∈ ofKey k rows ↔ i ∈ rows ∧ i.key = k := by
  rw [ofKey, List.mem_filter, beq_iff_eq]

/-- The row that a name means is the first one of its key. -/
theorem head?_ofKey (rows : List Item) (name : Text) :
    (ofKey (Text.matchKey name) rows).head? = Item.find? rows name := List.head?_filter

theorem ofKey_of_find? (h : Item.find? rows name = some i) :
    ∃ rest, ofKey (Text.matchKey name) rows = i :: rest := by
  rw [← head?_ofKey] at h
  exact List.head?_eq_some_iff.mp h

theorem key_of_find? (h : Item.find? rows name = some i) : i.key = Text.matchKey name := by
  have hnamed : isNamed name i = true := List.find?_some h
  exact beq_iff_eq.mp hnamed

end Item

namespace Write

variable {w : Write} {rows rest : List Item} {k : Text} {i j : Item} {id order : Int}

theorem key_edit (h : w.edit i = some j) : j.key = i.key := Item.key_of_seat (seat_edit h)

theorem key_of_row? (h : w.row? id order = some i) : i.key = Text.matchKey w.name := by
  rw [Item.key, name_of_row? h, Text.matchKey_strip]

/-- A write changes the first row of its key, or takes it off. -/
theorem ofKey_perform_cons (id : Int) (hk : Text.matchKey w.name = k)
    (h : Item.ofKey k rows = i :: rest) :
    Item.ofKey k (w.perform id rows) = (w.edit i).toList ++ rest := by
  subst hk
  have hfound : Item.find? rows w.name = some i := by rw [← Item.head?_ofKey, h, List.head?_cons]
  have hkey : i.key = Text.matchKey w.name := Item.key_of_find? hfound
  have hedit : ∀ i j, Item.isNamed w.name i = true → w.edit i = some j →
      Item.isNamed w.name j = true := by
    intro i j hi hij
    rw [Item.isNamed, key_edit hij]
    exact hi
  calc Item.ofKey (Text.matchKey w.name) (w.perform id rows)
      = (Item.editFirst (Item.isNamed w.name) w.edit rows).filter (Item.isNamed w.name) := by
        rw [perform_of_found hfound]
        rfl
    _ = Item.editFirst (Item.isNamed w.name) w.edit (i :: rest) := by
        rw [Item.filter_editFirst (fun _ hi => hi) hedit, ← h]
        rfl
    _ = (w.edit i).toList ++ rest :=
        Item.editFirst_cons_pos (beq_iff_eq.mpr hkey)

/-- Where no row has its key, a write puts its own row there, if it has one. -/
theorem ofKey_perform_nil (id : Int) (hk : Text.matchKey w.name = k)
    (h : Item.ofKey k rows = []) :
    Item.ofKey k (w.perform id rows) = (w.row? id (Item.nextOrder rows)).toList := by
  subst hk
  have hmissing : Item.find? rows w.name = none := by rw [← Item.head?_ofKey, h, List.head?_nil]
  rw [perform_of_missing hmissing, Item.ofKey, List.filter_append]
  rw [Item.ofKey] at h
  rw [h, List.nil_append, List.filter_eq_self]
  intro i hi
  exact beq_iff_eq.mpr (key_of_row? (Option.mem_toList.mp hi))

/-- The row that a write puts at the end does not show among rows of other keys. -/
theorem filter_append_row? (id order : Int) {q : Item → Bool}
    (hq : ∀ i : Item, i.key = Text.matchKey w.name → q i = false) (rows : List Item) :
    (rows ++ (w.row? id order).toList).filter q = rows.filter q := by
  rw [List.filter_append]
  cases hrow : w.row? id order with
  | none => exact List.append_nil _
  | some i => simp [hq i (key_of_row? hrow)]

/-- A write does not show among rows that do not have its key. -/
theorem filter_perform (id : Int) {q : Item → Bool}
    (hq : ∀ i : Item, i.key = Text.matchKey w.name → q i = false) :
    (w.perform id rows).filter q = rows.filter q := by
  cases hf : Item.find? rows w.name with
  | some i =>
    have hnamed : ∀ i, Item.isNamed w.name i = true → q i = false := fun i hi =>
      hq i (beq_iff_eq.mp hi)
    rw [perform_of_found hf]
    refine Item.filter_editFirst_of_disjoint hnamed fun i j hi hij => ?_
    exact hq j ((key_edit hij).trans (beq_iff_eq.mp hi))
  | none => rw [perform_of_missing hf, filter_append_row? _ _ hq]

/-- Rows of another key are left as they are. -/
theorem ofKey_perform_of_ne (id : Int) (hk : Text.matchKey w.name ≠ k) :
    Item.ofKey k (w.perform id rows) = Item.ofKey k rows := by
  refine filter_perform id fun i hi => ?_
  rw [hi]
  exact beq_false_of_ne hk

end Write

/-- An addition asks for its quantity and its note under a name of its key. -/
theorem Entry.write_add {policy : FloorPolicy} {working : List Item} {e : AddEntry} {x : Effect}
    (h : (Entry.add e).effect? policy working = some x) :
    ∃ name, Text.matchKey name = Text.matchKey e.name ∧ x.write = .add name e.quantity e.note := by
  obtain rfl : Effect.ofAdd working e (Item.find? working e.name) = x := Option.some.inj h
  cases hrow : Item.find? working e.name with
  | some row => exact ⟨row.name, Item.key_of_find? hrow, rfl⟩
  | none => exact ⟨Text.strip e.name, Text.matchKey_strip e.name, rfl⟩

end SpokenList
