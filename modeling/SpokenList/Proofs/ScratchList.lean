import SpokenList.Proofs.Arrangement
import SpokenList.ScratchList

/-! # What a scratch list shows

A scratch list looks names up in the order in which its rows came, and shows the
rows in another order.  As long as rows of one name are kept in the order in
which they are shown (`NamesInDisplayOrder`), this makes no difference: a write
does to the rows that are shown what it does to those that are kept
(`items_apply`), and the rows stay in such an order (`namesInDisplayOrder_apply`).
-/
namespace SpokenList
namespace ScratchList

/-- Rows that share a name are kept in the order in which they are shown. -/
def NamesInDisplayOrder (l : ScratchList) : Prop :=
  ∀ i ∈ l.rows, l.items.filter (·.key == i.key) = l.rows.filter (·.key == i.key)

instance (l : ScratchList) : Decidable l.NamesInDisplayOrder :=
  inferInstanceAs (Decidable (∀ i ∈ l.rows, _ = _))

variable {l : ScratchList}

theorem mem_items {i : Item} : i ∈ l.items ↔ i ∈ l.rows := Item.mem_arrange

/-- Which names are on the list does not depend on the order. -/
theorem find?_items_eq_none_iff {name : Text} :
    Item.find? l.items name = none ↔ Item.find? l.rows name = none := by
  simp only [Item.find?_eq_none_iff, mem_items]

/-- Keys that no row has make no exception. -/
theorem NamesInDisplayOrder.filter_key (h : l.NamesInDisplayOrder) (k : Text) :
    l.items.filter (·.key == k) = l.rows.filter (·.key == k) := by
  by_cases hk : ∃ i ∈ l.rows, i.key = k
  · obtain ⟨i, hi, rfl⟩ := hk
    exact h i hi
  · have hnone : ∀ i ∈ l.rows, ¬ (i.key == k) = true := by
      intro i hi hik
      exact hk ⟨i, hi, by simpa using hik⟩
    rw [List.filter_eq_nil_iff.mpr fun i hi => hnone i (mem_items.mp hi),
      List.filter_eq_nil_iff.mpr hnone]

theorem NamesInDisplayOrder.find? (h : l.NamesInDisplayOrder) (name : Text) :
    Item.find? l.items name = Item.find? l.rows name := by
  have hfilter := h.filter_key (Text.matchKey name)
  simp only [Item.find?, ← List.head?_filter]
  exact congrArg List.head? hfilter

theorem nextOrder_items (l : ScratchList) : Item.nextOrder l.items = Item.nextOrder l.rows :=
  Item.nextOrder_arrange Item.byOrder l.rows

/-! ## Writes -/

/-- The rows that are kept after a write. -/
theorem rows_apply (l : ScratchList) (w : Write) :
    (l.apply w).rows = w.perform l.nextId l.rows := by
  cases hf : Item.find? l.rows w.name with
  | some i =>
    rw [Write.perform_of_found hf]
    cases w with
    | adjust name delta => exact Item.modifyFirst_eq_editFirst ..
    | remove name => exact Item.eraseP_eq_editFirst ..
    | add name quantity note =>
      change Item.find? l.rows name = some i at hf
      rw [apply, if_pos (by rw [hf]; rfl)]
      exact Item.modifyFirst_eq_editFirst ..
  | none =>
    rw [Write.perform_of_missing hf]
    cases w with
    | adjust name delta =>
      change Item.find? l.rows name = none at hf
      show Item.modifyFirst (Item.isNamed name) (Item.adjusted delta) l.rows = l.rows ++ []
      rw [Item.modifyFirst_eq_editFirst, Item.editFirst_of_find?_eq_none hf, List.append_nil]
    | remove name =>
      change Item.find? l.rows name = none at hf
      show l.rows.eraseP (Item.isNamed name) = l.rows ++ []
      rw [Item.eraseP_eq_editFirst, Item.editFirst_of_find?_eq_none hf, List.append_nil]
    | add name quantity note =>
      change Item.find? l.rows name = none at hf
      rw [apply, if_neg (by simp [hf])]
      rfl

theorem keepsPlace_edit (w : Write) : Item.KeepsPlace Item.byOrder w.edit := by
  intro i j h k
  have horder : j.order = i.order := Item.order_of_seat (Write.seat_edit h)
  simp only [Item.byOrder, horder, and_self]

/-- A write does to the rows that are shown what it does to those that are kept, if
the rows of its item are kept in the order in which they are shown. -/
theorem items_apply_of_filter {w : Write}
    (h : l.items.filter (Item.isNamed w.name) = l.rows.filter (Item.isNamed w.name)) :
    (l.apply w).items = w.perform l.nextId l.items := by
  have hfind : Item.find? l.items w.name = Item.find? l.rows w.name := by
    simp only [Item.find?, ← List.head?_filter, h]
  show Item.arrange Item.byOrder (l.apply w).rows = _
  rw [rows_apply]
  cases hf : Item.find? l.rows w.name with
  | some i =>
    rw [Write.perform_of_found hf, Write.perform_of_found (hfind.trans hf)]
    exact Item.arrange_editFirst Item.arranges_byOrder (keepsPlace_edit w) h
  | none =>
    rw [Write.perform_of_missing hf, Write.perform_of_missing (hfind.trans hf), nextOrder_items]
    cases w with
    | add name quantity note =>
      refine Item.arrange_append_last ?_
      intro j hj
      have hlt := Item.order_lt_nextOrder hj
      simp only [Item.byOrder, decide_eq_true_eq]
      omega
    | _ => simp [Write.row?, items]

/-- An item that no row is named for has no rows that could be kept in another order. -/
theorem items_apply_of_missing {w : Write} (h : Item.find? l.items w.name = none) :
    (l.apply w).items = w.perform l.nextId l.items := by
  have hnone := Item.find?_eq_none_iff.mp h
  have hfilter {rows : List Item} (hrows : ∀ i ∈ rows, i ∈ l.items) :
      rows.filter (Item.isNamed w.name) = [] :=
    List.filter_eq_nil_iff.mpr fun i hi hnamed => hnone i (hrows i hi) (beq_iff_eq.mp hnamed)
  refine items_apply_of_filter ?_
  rw [hfilter fun _ hi => hi, hfilter fun _ hi => mem_items.mpr hi]

/-- **A write does to the rows that are shown what it does to those that are
kept.** -/
theorem items_apply (h : l.NamesInDisplayOrder) (w : Write) :
    (l.apply w).items = w.perform l.nextId l.items :=
  items_apply_of_filter (h.filter_key (Text.matchKey w.name))

/-- A write leaves the rows of a name in the order in which they are shown. -/
theorem namesInDisplayOrder_apply (h : l.NamesInDisplayOrder) (w : Write) :
    (l.apply w).NamesInDisplayOrder := by
  intro i _
  rw [items_apply h, rows_apply]
  generalize i.key = k
  cases hf : Item.find? l.rows w.name with
  | none =>
    rw [Write.perform_of_missing hf, Write.perform_of_missing ((h.find? w.name).trans hf),
      nextOrder_items, List.filter_append, List.filter_append, h.filter_key]
  | some _ =>
    rw [Write.perform_of_found hf, Write.perform_of_found ((h.find? w.name).trans hf)]
    by_cases hk : Text.matchKey w.name = k
    · subst hk
      have hg : ∀ i j, Item.isNamed w.name i = true → w.edit i = some j →
          Item.isNamed w.name j = true := by
        intro i j hi hij
        rw [Item.isNamed, Item.key_of_seat (Write.seat_edit hij)]
        exact hi
      show (Item.editFirst _ w.edit l.items).filter (Item.isNamed w.name) =
        (Item.editFirst _ w.edit l.rows).filter (Item.isNamed w.name)
      rw [Item.filter_editFirst (fun _ hi => hi) hg, Item.filter_editFirst (fun _ hi => hi) hg]
      exact congrArg _ (h.filter_key (Text.matchKey w.name))
    · have hp : ∀ i, Item.isNamed w.name i = true → (i.key == k) = false := by
        intro i hi
        rw [Item.isNamed, beq_iff_eq] at hi
        rw [hi]
        exact beq_false_of_ne hk
      have hg : ∀ i j, Item.isNamed w.name i = true → w.edit i = some j → (j.key == k) = false := by
        intro i j hi hij
        rw [Item.key_of_seat (Write.seat_edit hij)]
        exact hp i hi
      rw [Item.filter_editFirst_of_disjoint hp hg, Item.filter_editFirst_of_disjoint hp hg,
        h.filter_key]

end ScratchList
end SpokenList
