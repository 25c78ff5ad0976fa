import SpokenList.Write

/-! # What a write does to rows

Every write that finds its row replaces that row or takes it off, and leaves the
rows around it where they are; `Item.editFirst` is the one operation behind the
three of them.  `Write.perform` is the whole effect of a write on a list of rows,
whoever holds them: it looks the row up by name, and an addition that finds none
puts a row at the end.
-/
namespace SpokenList
namespace Item

/-- What a row keeps for as long as it is on the list: its number, its name and
its place. -/
def seat (i : Item) : Int × Text × Int := (i.id, i.name, i.order)

theorem key_of_seat {i j : Item} (h : i.seat = j.seat) : i.key = j.key := by
  have hname : i.name = j.name := congrArg (fun seat => seat.2.1) h
  rw [key, key, hname]

theorem order_of_seat {i j : Item} (h : i.seat = j.seat) : i.order = j.order :=
  congrArg (fun seat => seat.2.2) h

theorem find?_eq_none_iff {rows : List Item} {name : Text} :
    find? rows name = none ↔ ∀ i ∈ rows, i.key ≠ Text.matchKey name := by
  simp only [find?, List.find?_eq_none, isNamed, beq_iff_eq]

/-! ## Edits of the first row -/

variable {p q : Item → Bool} {g g' : Item → Option Item} {rows : List Item}

/-- Puts what `g` makes of it, if anything, into the place of the first row that
satisfies `p`. -/
def editFirst (p : Item → Bool) (g : Item → Option Item) : List Item → List Item
  | [] => []
  | i :: rest => if p i then (g i).toList ++ rest else i :: editFirst p g rest

@[simp] theorem editFirst_nil : editFirst p g [] = [] := rfl

theorem editFirst_cons_pos {i : Item} (h : p i = true) :
    editFirst p g (i :: rows) = (g i).toList ++ rows := by
  simp [editFirst, h]

theorem editFirst_cons_neg {i : Item} (h : p i = false) :
    editFirst p g (i :: rows) = i :: editFirst p g rows := by
  simp [editFirst, h]

theorem modifyFirst_eq_editFirst (p : Item → Bool) (f : Item → Item) (rows : List Item) :
    modifyFirst p f rows = editFirst p (fun i => some (f i)) rows := by
  induction rows with
  | nil => rfl
  | cons i rest ih => cases h : p i <;> simp [modifyFirst, editFirst, h, ih]

theorem eraseP_eq_editFirst (p : Item → Bool) (rows : List Item) :
    rows.eraseP p = editFirst p (fun _ => none) rows := by
  induction rows with
  | nil => rfl
  | cons i rest ih => cases h : p i <;> simp [editFirst, h, ih]

/-- Only what becomes of the row that is found matters. -/
theorem editFirst_congr (h : ∀ i, rows.find? p = some i → g i = g' i) :
    editFirst p g rows = editFirst p g' rows := by
  induction rows with
  | nil => rfl
  | cons i rest ih =>
    cases hi : p i with
    | true => rw [editFirst_cons_pos hi, editFirst_cons_pos hi, h i (by simp [hi])]
    | false =>
      rw [editFirst_cons_neg hi, editFirst_cons_neg hi, ih fun j hj => h j (by simpa [hi] using hj)]

theorem editFirst_of_find?_eq_none (h : rows.find? p = none) : editFirst p g rows = rows := by
  induction rows with
  | nil => rfl
  | cons i rest ih =>
    have hi : p i = false := by simpa using List.find?_eq_none.mp h i (by simp)
    rw [editFirst_cons_neg hi, ih (by simpa [hi] using h)]

/-- The rows before the one that is found stay as they are. -/
theorem editFirst_append {before after : List Item} {i : Item} (hbefore : ∀ j ∈ before, p j = false)
    (hi : p i = true) :
    editFirst p g (before ++ i :: after) = before ++ ((g i).toList ++ after) := by
  induction before with
  | nil => exact editFirst_cons_pos hi
  | cons j rest ih =>
    rw [List.cons_append, editFirst_cons_neg (hbefore j (by simp)),
      ih fun k hk => hbefore k (by simp [hk])]
    rfl

/-- A row after an edit was there before, or was made of the one that is found. -/
theorem mem_editFirst {j : Item} (h : j ∈ editFirst p g rows) :
    j ∈ rows ∨ ∃ i, rows.find? p = some i ∧ g i = some j := by
  induction rows with
  | nil => cases h
  | cons i rest ih =>
    cases hi : p i with
    | true =>
      rw [editFirst_cons_pos hi, List.mem_append, Option.mem_toList] at h
      rcases h with h | h
      · exact Or.inr ⟨i, List.find?_cons_of_pos hi, h⟩
      · exact Or.inl (List.mem_cons_of_mem i h)
    | false =>
      rw [editFirst_cons_neg hi] at h
      rcases List.mem_cons.mp h with rfl | h
      · exact Or.inl (List.mem_cons_self ..)
      · rcases ih h with h | ⟨k, hk, hgk⟩
        · exact Or.inl (List.mem_cons_of_mem i h)
        · exact Or.inr ⟨k, by rw [List.find?_cons_of_neg (by simp [hi]), hk], hgk⟩

/-- Among the rows that satisfy `q`, an edit of a row that satisfies it before
and after is an edit of the first of them. -/
theorem filter_editFirst (hp : ∀ i, p i = true → q i = true)
    (hg : ∀ i j, p i = true → g i = some j → q j = true) :
    (editFirst p g rows).filter q = editFirst p g (rows.filter q) := by
  induction rows with
  | nil => rfl
  | cons i rest ih =>
    cases hi : p i with
    | true =>
      rw [editFirst_cons_pos hi, List.filter_append, List.filter_cons_of_pos (hp i hi),
        editFirst_cons_pos hi]
      cases hj : g i with
      | none => simp
      | some j => simp [hg i j hi hj]
    | false =>
      rw [editFirst_cons_neg hi]
      cases hq : q i with
      | true =>
        rw [List.filter_cons_of_pos hq, List.filter_cons_of_pos hq, editFirst_cons_neg hi, ih]
      | false =>
        rw [List.filter_cons_of_neg (by simp [hq]), List.filter_cons_of_neg (by simp [hq]), ih]

/-- An edit of a row that does not satisfy `q`, neither before nor after, is not
seen among the rows that do. -/
theorem filter_editFirst_of_disjoint (hp : ∀ i, p i = true → q i = false)
    (hg : ∀ i j, p i = true → g i = some j → q j = false) :
    (editFirst p g rows).filter q = rows.filter q := by
  induction rows with
  | nil => rfl
  | cons i rest ih =>
    cases hi : p i with
    | true =>
      rw [editFirst_cons_pos hi, List.filter_append, List.filter_cons_of_neg (by simp [hp i hi])]
      cases hj : g i with
      | none => simp
      | some j => simp [hg i j hi hj]
    | false => rw [editFirst_cons_neg hi, List.filter_cons, List.filter_cons, ih]

/-- An edit looks the same through any view of the rows that does not hide which
row is found. -/
theorem map_editFirst {f : Item → Item} (hp : ∀ i, p (f i) = p i)
    (hg : ∀ i, (g i).map f = g (f i)) :
    (editFirst p g rows).map f = editFirst p g (rows.map f) := by
  induction rows with
  | nil => rfl
  | cons i rest ih =>
    cases hi : p i with
    | true =>
      rw [editFirst_cons_pos hi, List.map_cons, editFirst_cons_pos ((hp i).trans hi), ← hg,
        List.map_append]
      cases g i <;> rfl
    | false =>
      rw [editFirst_cons_neg hi, List.map_cons, List.map_cons,
        editFirst_cons_neg ((hp i).trans hi), ih]

end Item

namespace Write

/-- What the write makes of the row that it finds. -/
def edit : Write → Item → Option Item
  | adjust _ delta, i => some (i.adjusted delta)
  | remove _, _ => none
  | add _ quantity note, i => some (i.increased quantity note)

/-- The row that the write puts at the end of a list where it finds none. -/
def row? (id order : Int) : Write → Option Item
  | add name quantity note => some ⟨id, Text.strip name, quantity, note, order⟩
  | _ => none

/-- The rows after the write, if a row that is new gets the number `id`. -/
def perform (id : Int) (w : Write) (rows : List Item) : List Item :=
  if (Item.find? rows w.name).isSome then Item.editFirst (Item.isNamed w.name) w.edit rows
  else rows ++ (w.row? id (Item.nextOrder rows)).toList

variable {w : Write} {i j : Item} {rows : List Item}

/-- A write changes neither the number of a row, nor its name, nor its place. -/
theorem seat_edit (h : w.edit i = some j) : j.seat = i.seat := by
  cases w with
  | adjust name delta =>
    cases h
    rfl
  | remove name => cases h
  | add name quantity note =>
    cases h
    rfl

theorem perform_of_found {id : Int} (h : Item.find? rows w.name = some i) :
    w.perform id rows = Item.editFirst (Item.isNamed w.name) w.edit rows := by
  simp [perform, h]

theorem perform_of_missing {id : Int} (h : Item.find? rows w.name = none) :
    w.perform id rows = rows ++ (w.row? id (Item.nextOrder rows)).toList := by
  simp [perform, h]

/-- An addition that finds no row puts one at the end. -/
theorem perform_add_of_missing (id quantity : Int) (note : Option Text) {name : Text}
    (h : Item.find? rows name = none) :
    (Write.add name quantity note).perform id rows =
      rows ++ [⟨id, Text.strip name, quantity, note, Item.nextOrder rows⟩] :=
  perform_of_missing (w := .add name quantity note) h

/-- Where the rows after a write come from: they were there before, or are what
the write makes of the row that it finds, or the row that it puts at the end. -/
theorem mem_perform {id : Int} (h : i ∈ w.perform id rows) :
    i ∈ rows ∨ (∃ j, Item.find? rows w.name = some j ∧ w.edit j = some i) ∨
      w.row? id (Item.nextOrder rows) = some i := by
  unfold perform at h
  split at h
  · rcases Item.mem_editFirst h with h | h
    · exact Or.inl h
    · exact Or.inr (Or.inl h)
  · rcases List.mem_append.mp h with h | h
    · exact Or.inl h
    · exact Or.inr (Or.inr (Option.mem_toList.mp h))

theorem name_of_row? {id order : Int} (h : w.row? id order = some i) :
    i.name = Text.strip w.name := by
  cases w with
  | add name quantity note =>
    cases h
    rfl
  | _ => cases h

/-- A row after the write has the name of a row before it, or that of the write. -/
theorem name_of_mem_perform {id : Int} (h : i ∈ w.perform id rows) :
    (∃ j ∈ rows, i.name = j.name) ∨ i.name = Text.strip w.name := by
  rcases mem_perform h with h | ⟨j, hj, hij⟩ | h
  · exact Or.inl ⟨i, h, rfl⟩
  · exact Or.inl ⟨j, List.mem_of_find?_eq_some hj, congrArg (fun seat => seat.2.1) (seat_edit hij)⟩
  · exact Or.inr (name_of_row? h)

end Write
end SpokenList
