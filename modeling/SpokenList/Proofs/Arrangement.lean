import Mathlib.Data.List.TakeWhile
import SpokenList.Proofs.Rows

/-! # Display order

`Item.arrange` is a stable sort.  This module proves what a holder needs of it:
the arranged rows are the same rows in ascending order (`arrange_perm`,
`arrange_pairwise`), a row that goes after all others is shown last
(`arrange_append_last`), rows that go leave the others in their order
(`arrange_sublist`), rows may be left out before or after arranging
(`filter_arrange`), and an edit of the first row that satisfies `p` may be made
before or after arranging (`arrange_editFirst`).

The last one needs that arranging does not bring another row to the front: the
rows that satisfy `p` are to be shown in the order in which they are kept.
-/
namespace SpokenList
namespace Item

/-- What `before` has to be for `arrange` to sort by it. -/
structure Arranges (before : Item → Item → Bool) : Prop where
  refl : ∀ i, before i i = true
  trans : ∀ {i j k}, before i j = true → before j k = true → before i k = true
  total : ∀ i j, before i j = true ∨ before j i = true

theorem arranges_byOrder : Arranges byOrder where
  refl i := by simp [byOrder]
  trans := by
    intro i j k hij hjk
    simp only [byOrder, decide_eq_true_eq] at *
    omega
  total := by
    intro i j
    simp only [byOrder, decide_eq_true_eq]
    omega

theorem arranges_byOrderThenId : Arranges byOrderThenId where
  refl i := by simp [byOrderThenId]
  trans := by
    intro i j k hij hjk
    simp only [byOrderThenId, Bool.or_eq_true, Bool.and_eq_true, decide_eq_true_eq,
      beq_iff_eq] at *
    omega
  total := by
    intro i j
    simp only [byOrderThenId, Bool.or_eq_true, Bool.and_eq_true, decide_eq_true_eq, beq_iff_eq]
    omega

variable {before : Item → Item → Bool} {rows : List Item} {i : Item}

/-! ## The same rows, in ascending order -/

theorem place_eq (before : Item → Item → Bool) (i : Item) (rows : List Item) :
    place before i rows =
      rows.takeWhile (fun j => !before i j) ++ i :: rows.dropWhile (fun j => !before i j) := by
  induction rows with
  | nil => rfl
  | cons j rest ih => cases h : before i j <;> simp [place, h, ih]

theorem place_of_forall_before (h : ∀ j ∈ rows, before i j = true) :
    place before i rows = i :: rows := by
  cases rows with
  | nil => rfl
  | cons j rest => simp [place, h j (by simp)]

theorem place_perm (before : Item → Item → Bool) (i : Item) (rows : List Item) :
    (place before i rows).Perm (i :: rows) := by
  rw [place_eq]
  refine List.perm_middle.trans ?_
  rw [List.takeWhile_append_dropWhile]

theorem arrange_cons (before : Item → Item → Bool) (i : Item) (rows : List Item) :
    arrange before (i :: rows) = place before i (arrange before rows) := rfl

theorem arrange_perm (before : Item → Item → Bool) (rows : List Item) :
    (arrange before rows).Perm rows := by
  induction rows with
  | nil => exact List.Perm.refl _
  | cons i rest ih =>
    rw [arrange_cons]
    exact (place_perm before i _).trans (ih.cons i)

theorem mem_arrange : i ∈ arrange before rows ↔ i ∈ rows := (arrange_perm before rows).mem_iff

theorem place_pairwise (hb : Arranges before) (i : Item)
    (h : rows.Pairwise fun j k => before j k = true) :
    (place before i rows).Pairwise fun j k => before j k = true := by
  induction rows with
  | nil => simp [place]
  | cons j rest ih =>
    obtain ⟨hj, hrest⟩ := List.pairwise_cons.mp h
    unfold place
    split
    · rename_i hij
      refine List.pairwise_cons.mpr ⟨?_, h⟩
      intro k hk
      rcases List.mem_cons.mp hk with rfl | hk
      · exact hij
      · exact hb.trans hij (hj k hk)
    · rename_i hij
      refine List.pairwise_cons.mpr ⟨?_, ih hrest⟩
      intro k hk
      rcases List.mem_cons.mp ((place_perm before i rest).mem_iff.mp hk) with rfl | hk
      · exact (hb.total k j).resolve_left hij
      · exact hj k hk

theorem arrange_pairwise (hb : Arranges before) (rows : List Item) :
    (arrange before rows).Pairwise fun j k => before j k = true := by
  induction rows with
  | nil => exact List.Pairwise.nil
  | cons i rest ih => exact place_pairwise hb i ih

/-- Rows in ascending order stay as they are. -/
theorem arrange_of_pairwise (h : rows.Pairwise fun j k => before j k = true) :
    arrange before rows = rows := by
  induction rows with
  | nil => rfl
  | cons i rest ih =>
    obtain ⟨hi, hrest⟩ := List.pairwise_cons.mp h
    rw [arrange_cons, ih hrest, place_of_forall_before hi]

/-! ## Rows at the end -/

theorem place_append_last {j : Item} (h : before j i = true) :
    place before j (rows ++ [i]) = place before j rows ++ [i] := by
  induction rows with
  | nil => simp [place, h]
  | cons k rest ih =>
    simp only [List.cons_append, place, ih]
    split <;> rfl

theorem arrange_append_last (h : ∀ j ∈ rows, before j i = true) :
    arrange before (rows ++ [i]) = arrange before rows ++ [i] := by
  induction rows with
  | nil => rfl
  | cons j rest ih =>
    rw [List.cons_append, arrange_cons, arrange_cons, ih fun k hk => h k (by simp [hk]),
      place_append_last (h j (by simp))]

/-! ## Rows that go, and views of rows -/

theorem sublist_place (before : Item → Item → Bool) (i : Item) (rows : List Item) :
    rows.Sublist (place before i rows) := by
  induction rows with
  | nil => exact List.nil_sublist _
  | cons j rest ih =>
    unfold place
    split
    · exact List.sublist_cons_self i (j :: rest)
    · exact ih.cons_cons j

theorem place_sublist (hb : Arranges before) (i : Item) {xs ys : List Item} (h : xs.Sublist ys)
    (hys : ys.Pairwise fun j k => before j k = true) :
    (place before i xs).Sublist (place before i ys) := by
  induction h with
  | slnil => exact List.Sublist.refl _
  | cons j hrest ih =>
    obtain ⟨hj, hys⟩ := List.pairwise_cons.mp hys
    rw [place]
    split
    · rename_i hij
      -- `i` comes before `j`, so before all that is left of the rows after it
      rw [place_of_forall_before fun k hk => hb.trans hij (hj k (hrest.subset hk))]
      exact (hrest.cons j).cons_cons i
    · exact (ih hys).cons j
  | cons_cons j hrest ih =>
    rw [place, place]
    split
    · exact (hrest.cons_cons j).cons_cons i
    · exact (ih (List.pairwise_cons.mp hys).2).cons_cons j

/-- **Rows that go leave the others in the order that they had.** -/
theorem arrange_sublist (hb : Arranges before) {xs ys : List Item} (h : xs.Sublist ys) :
    (arrange before xs).Sublist (arrange before ys) := by
  induction h with
  | slnil => exact List.Sublist.refl _
  | cons i _ ih => exact ih.trans (sublist_place before i _)
  | @cons_cons xs ys i _ ih => exact place_sublist hb i ih (arrange_pairwise hb ys)

theorem map_place_congr {β : Type} {f : Item → β}
    (hf : ∀ {i i' j j'}, f i = f i' → f j = f j' → before i j = before i' j') {i i' : Item}
    (hi : f i = f i') {xs ys : List Item} (h : xs.map f = ys.map f) :
    (place before i xs).map f = (place before i' ys).map f := by
  induction xs generalizing ys with
  | nil =>
    obtain rfl := List.map_eq_nil_iff.mp h.symm
    exact congrArg (fun x => [x]) hi
  | cons j rest ih =>
    obtain ⟨j', rest', rfl, hj, hrest⟩ := List.map_eq_cons_iff.mp h.symm
    rw [place, place, hf hi hj.symm]
    split
    · exact congrArg₂ List.cons hi h
    · exact congrArg₂ List.cons hj.symm (ih hrest.symm)

/-- Rows that look alike are arranged alike, if the view shows what they are
arranged by. -/
theorem map_arrange_congr {β : Type} {f : Item → β}
    (hf : ∀ {i i' j j'}, f i = f i' → f j = f j' → before i j = before i' j')
    {xs ys : List Item} (h : xs.map f = ys.map f) :
    (arrange before xs).map f = (arrange before ys).map f := by
  induction xs generalizing ys with
  | nil =>
    obtain rfl := List.map_eq_nil_iff.mp h.symm
    rfl
  | cons i rest ih =>
    obtain ⟨i', rest', rfl, hi, hrest⟩ := List.map_eq_cons_iff.mp h.symm
    exact map_place_congr hf hi.symm (ih hrest.symm)

/-! ## Edits and arranging -/

/-- What `g` makes of a row stands where the row stood. -/
def KeepsPlace (before : Item → Item → Bool) (g : Item → Option Item) : Prop :=
  ∀ i j, g i = some j → ∀ k, before j k = before i k ∧ before k j = before k i

variable {p : Item → Bool} {g : Item → Option Item}

theorem filter_place_of_neg (hi : p i = false) (rows : List Item) :
    (place before i rows).filter p = rows.filter p := by
  rw [place_eq, List.filter_append, List.filter_cons_of_neg (by simp [hi]), ← List.filter_append,
    List.takeWhile_append_dropWhile]

theorem filter_place_of_pos (hb : Arranges before) (hi : p i = true)
    (h : rows.Pairwise fun j k => before j k = true) :
    (place before i rows).filter p = place before i (rows.filter p) := by
  induction rows with
  | nil => simp [place, hi]
  | cons j rest ih =>
    obtain ⟨hj, hrest⟩ := List.pairwise_cons.mp h
    cases hij : before i j with
    | true =>
      have hafter : ∀ k ∈ (j :: rest).filter p, before i k = true := by
        intro k hk
        rcases List.mem_cons.mp (List.mem_filter.mp hk).1 with rfl | hk
        · exact hij
        · exact hb.trans hij (hj k hk)
      rw [place_of_forall_before hafter, place, if_pos hij, List.filter_cons_of_pos hi]
    | false =>
      rw [place, if_neg (by simp [hij]), List.filter_cons, List.filter_cons, ih hrest]
      split
      · rw [place, if_neg (by simp [hij])]
      · rfl

/-- Rows may be left out before or after arranging. -/
theorem filter_arrange (hb : Arranges before) (p : Item → Bool) (rows : List Item) :
    (arrange before rows).filter p = arrange before (rows.filter p) := by
  induction rows with
  | nil => rfl
  | cons i rest ih =>
    cases hi : p i with
    | true =>
      rw [arrange_cons, filter_place_of_pos hb hi (arrange_pairwise hb rest), ih,
        List.filter_cons_of_pos hi, arrange_cons]
    | false =>
      rw [arrange_cons, filter_place_of_neg hi, ih, List.filter_cons_of_neg (by simp [hi])]

/-- A row that is not edited may be placed before or after the edit. -/
theorem place_editFirst (hb : Arranges before) (hg : KeepsPlace before g) (hi : p i = false)
    (hrows : rows.Pairwise fun j k => before j k = true) :
    place before i (editFirst p g rows) = editFirst p g (place before i rows) := by
  induction rows with
  | nil => simp [place, editFirst, hi]
  | cons j rest ih =>
    obtain ⟨hj, hrest⟩ := List.pairwise_cons.mp hrows
    cases hp : p j with
    | false =>
      rw [editFirst_cons_neg hp]
      unfold place
      split
      · rw [editFirst_cons_neg hi, editFirst_cons_neg hp]
      · rw [editFirst_cons_neg hp, ih hrest]
    | true =>
      rw [editFirst_cons_pos hp]
      cases hij : before i j with
      | true =>
        have hafter : ∀ k ∈ (g j).toList ++ rest, before i k = true := by
          intro k hk
          rcases List.mem_append.mp hk with hk | hk
          · have hjk : g j = some k := by simpa using hk
            rw [(hg j k hjk i).2, hij]
          · exact hb.trans hij (hj k hk)
        simp only [place, hij, if_true]
        rw [place_of_forall_before hafter, editFirst_cons_neg hi, editFirst_cons_pos hp]
      | false =>
        have hstep : place before i (j :: rest) = j :: place before i rest := by simp [place, hij]
        rw [hstep, editFirst_cons_pos hp]
        cases hgj : g j with
        | none => rfl
        | some k =>
          have hik : before i k = false := by rw [(hg j k hgj i).2, hij]
          simp [place, hik]

/-- **Edits and arranging commute**, if the rows that satisfy `p` are shown in
the order in which they are kept. -/
theorem arrange_editFirst (hb : Arranges before) (hg : KeepsPlace before g)
    (h : (arrange before rows).filter p = rows.filter p) :
    arrange before (editFirst p g rows) = editFirst p g (arrange before rows) := by
  induction rows with
  | nil => rfl
  | cons i rest ih =>
    rw [arrange_cons] at h ⊢
    cases hi : p i with
    | false =>
      have hrest : (arrange before rest).filter p = rest.filter p := by
        rw [filter_place_of_neg hi] at h
        simpa [hi] using h
      rw [editFirst_cons_neg hi, arrange_cons, ih hrest,
        place_editFirst hb hg hi (arrange_pairwise hb rest)]
    | true =>
      rw [place_eq] at h ⊢
      -- a row in front of `i` that satisfies `p` would be shown first of those that do
      have hfront : ∀ j ∈ (arrange before rest).takeWhile (fun j => !before i j), p j = false := by
        rw [List.filter_append, List.filter_cons_of_pos hi, List.filter_cons_of_pos hi] at h
        cases hf : ((arrange before rest).takeWhile fun j => !before i j).filter p with
        | nil => simpa using List.filter_eq_nil_iff.mp hf
        | cons j others =>
          have hji : j = i := by rw [hf] at h; exact (List.cons.inj h).1
          have hj : j ∈ (arrange before rest).takeWhile fun j => !before i j :=
            (List.mem_filter.mp (hf ▸ List.mem_cons_self)).1
          have hbefore := List.mem_takeWhile_imp hj
          rw [hji, hb.refl] at hbefore
          cases hbefore
      rw [editFirst_append hfront hi, editFirst_cons_pos hi]
      cases hgi : g i with
      | none => simp only [Option.toList_none, List.nil_append, List.takeWhile_append_dropWhile]
      | some j =>
        have hsame : (fun k => !before j k) = fun k => !before i k := by
          funext k
          rw [(hg i j hgi k).1]
        show place before j (arrange before rest) = _
        rw [place_eq, hsame]
        rfl

/-! ## The next place -/

theorem numberAfter_perm {first : Int} {xs ys : List Int} (h : xs.Perm ys) :
    numberAfter first xs = numberAfter first ys := by
  have hmax : xs.max? = ys.max? := by
    cases hx : xs.max? with
    | none =>
      rw [List.max?_eq_none_iff.mp hx] at h
      rw [← h.nil_eq, List.max?_nil]
    | some n =>
      obtain ⟨hmem, hle⟩ := List.max?_eq_some_iff.mp hx
      exact (List.max?_eq_some_iff.mpr
        ⟨h.mem_iff.mp hmem, fun m hm => hle m (h.mem_iff.mpr hm)⟩).symm
  rw [numberAfter, numberAfter, hmax]

theorem lt_numberAfter {first n : Int} {xs : List Int} (h : n ∈ xs) : n < numberAfter first xs := by
  unfold numberAfter
  split
  · rename_i m hm
    have hle := (List.max?_eq_some_iff.mp hm).2 n h
    omega
  · rename_i hm
    rw [List.max?_eq_none_iff.mp hm] at h
    cases h

/-- The number after the others becomes the largest one. -/
theorem numberAfter_append (first : Int) (xs : List Int) :
    numberAfter first (xs ++ [numberAfter first xs]) = numberAfter first xs + 1 := by
  have hmax : (xs ++ [numberAfter first xs]).max? = some (numberAfter first xs) := by
    refine List.max?_eq_some_iff.mpr ⟨by simp, fun n hn => ?_⟩
    rcases List.mem_append.mp hn with hn | hn
    · exact Int.le_of_lt (lt_numberAfter hn)
    · exact Int.le_of_eq (List.mem_singleton.mp hn)
  rw [numberAfter, hmax]

theorem nextOrder_arrange (before : Item → Item → Bool) (rows : List Item) :
    nextOrder (arrange before rows) = nextOrder rows :=
  numberAfter_perm ((arrange_perm before rows).map order)

theorem order_lt_nextOrder (h : i ∈ rows) : i.order < nextOrder rows :=
  lt_numberAfter (List.mem_map_of_mem h)

end Item
end SpokenList
