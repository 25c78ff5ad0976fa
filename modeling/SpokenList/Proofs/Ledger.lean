import SpokenList.Proofs.Arrangement
import SpokenList.Proofs.ColumnKey
import SpokenList.Proofs.Sessions

/-! # What a ledger shows

A ledger finds a row by the key that the table makes of its name, takes the row
that it has found out of the table again to change it, and shows its rows by
place and number (`Ledger.shows_items`).  As long as all names are plain (`Ledger.PlainNames`), this
comes to what any list of rows does: a write that is committed does to the rows
that are shown what it does to a list of them (`Ledger.items_written`), and the
names stay plain (`Ledger.plainNames_written`).
-/
namespace SpokenList

namespace Item

variable {p : Item → Bool} {g : Item → Option Item} {rows : List Item} {i : Item}

/-- The first row that passes a test is the first one that equals it. -/
theorem editFirst_eq_of_find? (h : rows.find? p = some i) :
    editFirst (· == i) g rows = editFirst p g rows := by
  obtain ⟨hi, front, back, rfl, hfront⟩ := List.find?_eq_some_iff_append.mp h
  have hp : ∀ j ∈ front, p j = false := by
    intro j hj
    simpa using hfront j hj
  have hne : ∀ j ∈ front, (j == i) = false := by
    intro j hj
    refine beq_false_of_ne ?_
    rintro rfl
    exact absurd (hp j hj) (by simp [hi])
  rw [editFirst_append hne (beq_self_eq_true i), editFirst_append hp hi]

/-- Equal rows are as many in any order. -/
theorem filter_beq_arrange (before : Item → Item → Bool) (rows : List Item) (i : Item) :
    (arrange before rows).filter (· == i) = rows.filter (· == i) := by
  rw [List.filter_beq, List.filter_beq, (arrange_perm before rows).count_eq]

end Item

namespace Ledger

/-- The rows in the order of display: by place, and by number where the place is the same. -/
structure Shows (l : Ledger) (rows : List Item) : Prop where
  perm : rows.Perm l.rows
  ascending : rows.Pairwise fun i j => i.order < j.order ∨ i.order = j.order ∧ i.id ≤ j.id

theorem shows_items (l : Ledger) : l.Shows l.items := by
  refine ⟨Item.arrange_perm _ _, ?_⟩
  refine (Item.arrange_pairwise Item.arranges_byOrderThenId l.rows).imp fun h => ?_
  simpa [Item.byOrderThenId] using h

/-- Taking blanks off makes a name as plain as it can be. -/
theorem plainName_strip_iff {name : Text} :
    PlainName (Text.strip name) ↔ ∀ c ∈ Text.strip name, 128 ≤ c.toNat → Text.Lowered c := by
  have htrimmed : Text.Trimmed (· == ' ') (Text.strip name) := by
    obtain ⟨hhead, hlast⟩ := Text.trimmed_trim Text.isBlank name
    have hspace : ∀ c, Text.isBlank c = false → (c == ' ') = false := by
      intro c hc
      refine beq_false_of_ne ?_
      rintro rfl
      exact absurd hc (by decide)
    exact ⟨fun c hc => hspace c (hhead c hc), fun c hc => hspace c (hlast c hc)⟩
  rw [PlainName, Text.strip_strip, Text.trim_eq_self_iff.mpr htrimmed]
  exact ⟨fun h => h.2, fun h => ⟨rfl, h⟩⟩

theorem PlainName.strip {name : Text} (h : PlainName name) : PlainName (Text.strip name) :=
  plainName_strip_iff.mpr h.2

/-- A name of ASCII characters, with no other blanks than spaces around it. -/
def AsciiName (name : Text) : Prop :=
  (∀ c ∈ name, c.toNat < 128) ∧ Text.trim (· == ' ') name = Text.strip name

instance (name : Text) : Decidable (AsciiName name) :=
  decidable_of_iff ((name.all fun c => c.toNat < 128) = true ∧
      Text.trim (· == ' ') name = Text.strip name) <| by
    simp only [AsciiName, List.all_eq_true, decide_eq_true_eq]

theorem AsciiName.plain {name : Text} (h : AsciiName name) : PlainName name := by
  refine ⟨h.2, fun c hc hle => ?_⟩
  have hlt := h.1 c (Text.mem_of_mem_trim hc)
  omega

theorem plainName_strip_of_ascii {name : Text} (h : ∀ c ∈ name, c.toNat < 128) :
    PlainName (Text.strip name) := by
  refine plainName_strip_iff.mpr fun c hc hle => ?_
  have hlt := h c (Text.mem_of_mem_trim hc)
  omega

/-- All rows have plain names. -/
def PlainNames (l : Ledger) : Prop := ∀ i ∈ l.rows, PlainName i.name

variable {l : Ledger} {i : Item} {w : Write}

theorem mem_items : i ∈ l.items ↔ i ∈ l.rows := Item.mem_arrange

theorem nextOrder_items (l : Ledger) : Item.nextOrder l.items = Item.nextOrder l.rows :=
  Item.nextOrder_arrange Item.byOrderThenId l.rows

/-- If the row that a name means has a plain name, the table finds it. -/
theorem findRow?_of_plain {name : Text}
    (h : ∀ i, Item.find? l.items name = some i → PlainName i.name) :
    l.findRow? name = Item.find? l.items name := by
  refine (find?_eq_find?_iff ?_ l.items).mpr ?_
  · intro i hi
    exact beq_iff_eq.mpr (matchKey_of_columnKey (eq_of_beq hi))
  · intro i hi
    have hnamed : Item.isNamed name i = true := List.find?_some hi
    rw [columnKey_eq_matchKey_iff.mpr (h i hi)]
    exact hnamed

/-- Among plain names the table finds the row that a name means. -/
theorem PlainNames.findRow? (h : l.PlainNames) (name : Text) :
    l.findRow? name = Item.find? l.items name :=
  findRow?_of_plain fun i hi => h i (mem_items.mp (List.mem_of_find?_eq_some hi))

/-! ## Writes -/

/-- What a write that is committed does to the table. -/
theorem rows_written (l : Ledger) (w : Write) :
    (l.written w).rows = match l.findRow? w.name with
      | some row => Item.editFirst (· == row) w.edit l.rows
      | none => l.rows ++ (w.row? l.newNumber.1 (Item.nextOrder l.rows)).toList := by
  have hupdate : ∀ (row : Item) (f : Item → Item), (∀ i, w.edit i = some (f i)) →
      Item.modifyFirst (· == row) (fun _ => f row) l.rows =
        Item.editFirst (· == row) w.edit l.rows := by
    intro row f hf
    rw [Item.modifyFirst_eq_editFirst]
    refine Item.editFirst_congr fun i hi => ?_
    have hrow := List.find?_some hi
    rw [hf, show i = row from eq_of_beq hrow]
  cases w with
  | adjust name delta =>
    simp only [written, change?, Write.name]
    cases l.findRow? name with
    | none => exact (List.append_nil _).symm
    | some row => exact hupdate row (Item.adjusted delta) fun _ => rfl
  | remove name =>
    simp only [written, change?, Write.name]
    cases l.findRow? name with
    | none => exact (List.append_nil _).symm
    | some row =>
      show l.rows.erase row = _
      rw [List.erase_eq_eraseP', Item.eraseP_eq_editFirst]
      rfl
  | add name quantity note =>
    simp only [written, change?, Write.name]
    cases l.findRow? name with
    | none => rfl
    | some row => exact hupdate row (Item.increased quantity note) fun _ => rfl

theorem keepsPlace_edit (w : Write) : Item.KeepsPlace Item.byOrderThenId w.edit := by
  intro i j h k
  have hseat := Write.seat_edit h
  have horder : j.order = i.order := Item.order_of_seat hseat
  have hid : j.id = i.id := congrArg (fun seat => seat.1) hseat
  simp only [Item.byOrderThenId, horder, hid, and_self]

/-- The row is one that the table finds for a name. -/
def isFound (name : Text) (row : Item) : Bool := columnKey row.name == Text.matchKey name

/-- **What a write that is committed does to the rows that are shown**: it edits the first
of those that the table finds, or puts one at the end. -/
theorem items_written_eq (l : Ledger) (w : Write) :
    (l.written w).items = match l.items.find? (isFound w.name) with
      | some _ => Item.editFirst (isFound w.name) w.edit l.items
      | none => l.items ++ (w.row? l.newNumber.1 (Item.nextOrder l.items)).toList := by
  have hfind : l.items.find? (isFound w.name) = l.findRow? w.name := rfl
  show Item.arrange Item.byOrderThenId (l.written w).rows = _
  rw [rows_written, hfind]
  cases hf : l.findRow? w.name with
  | some row =>
    dsimp only
    rw [← Item.editFirst_eq_of_find? (hfind.trans hf)]
    exact Item.arrange_editFirst Item.arranges_byOrderThenId (keepsPlace_edit w)
      (Item.filter_beq_arrange Item.byOrderThenId l.rows row)
  | none =>
    dsimp only
    rw [nextOrder_items]
    cases w with
    | add name quantity note =>
      refine Item.arrange_append_last ?_
      intro j hj
      have hlt := Item.order_lt_nextOrder hj
      simp only [Item.byOrderThenId, Bool.or_eq_true, decide_eq_true_eq]
      exact Or.inl hlt
    | _ => simp [Write.row?, items]

/-- A write that is committed does to the rows that are shown what it does to any list
of rows, if the table finds the row that the write means. -/
theorem items_written_of_findRow? (h : l.findRow? w.name = Item.find? l.items w.name) :
    (l.written w).items = w.perform l.newNumber.1 l.items := by
  have hfind : l.items.find? (isFound w.name) = Item.find? l.items w.name := h
  rw [items_written_eq, hfind]
  cases hf : Item.find? l.items w.name with
  | some row =>
    rw [Write.perform_of_found hf, ← Item.editFirst_eq_of_find? hf]
    exact (Item.editFirst_eq_of_find? (hfind.trans hf)).symm
  | none => rw [Write.perform_of_missing hf]

/-- **A write that is committed does to the rows that are shown what it does to
any list of rows.** -/
theorem items_written (h : l.PlainNames) (w : Write) :
    (l.written w).items = w.perform l.newNumber.1 l.items :=
  items_written_of_findRow? (h.findRow? w.name)

/-- Names stay plain when a name is written that is plain without its blanks. -/
theorem plainNames_written (h : l.PlainNames) (hw : PlainName (Text.strip w.name)) :
    (l.written w).PlainNames := by
  intro i hi
  rw [← mem_items, items_written h] at hi
  rcases Write.name_of_mem_perform hi with ⟨j, hj, hij⟩ | hij
  · rw [hij]
    exact h j (mem_items.mp hj)
  · rw [hij]
    exact hw

end Ledger
end SpokenList
