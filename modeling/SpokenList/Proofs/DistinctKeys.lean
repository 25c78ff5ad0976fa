import Mathlib.Data.List.Basic
import SpokenList.Proofs.ScratchList

/-! # Rows with distinct keys

Where no two rows share a key, a key picks out at most one row, and an edit of
the first row of a name is an edit of every row of that name: it is a
`filterMap` (`Item.editFirst_eq_filterMap`), under which the row of each key can
be followed on its own (`Item.withKey?_filterMap`).
-/
namespace SpokenList
namespace Item

/-- No two rows have the same key. -/
def DistinctKeys (rows : List Item) : Prop := (rows.map key).Nodup

instance (rows : List Item) : Decidable (DistinctKeys rows) :=
  inferInstanceAs (Decidable (List.Nodup _))

/-- The first row that has a key. -/
def withKey? (rows : List Item) (k : Text) : Option Item := rows.find? (·.key == k)

variable {rows : List Item} {f : Item → Option Item} {i j : Item} {k : Text}

theorem find?_eq_withKey? (rows : List Item) (name : Text) :
    Item.find? rows name = withKey? rows (Text.matchKey name) := rfl

theorem withKey?_cons (i : Item) (rows : List Item) (k : Text) :
    withKey? (i :: rows) k = if i.key = k then some i else withKey? rows k := by
  by_cases h : i.key = k
  · rw [if_pos h, withKey?, List.find?_cons_of_pos (by simp [h])]
  · rw [if_neg h, withKey?, List.find?_cons_of_neg (by simp [h]), withKey?]

theorem withKey?_append (xs ys : List Item) (k : Text) :
    withKey? (xs ++ ys) k = (withKey? xs k).or (withKey? ys k) := List.find?_append ..

theorem key_of_withKey? (h : withKey? rows k = some i) : i.key = k := by
  simpa using List.find?_some h

theorem withKey?_eq_none_iff : withKey? rows k = none ↔ k ∉ rows.map key := by
  rw [withKey?, List.find?_eq_none, List.mem_map]
  constructor
  · rintro h ⟨i, hi, rfl⟩
    exact h i hi (by simp)
  · intro h i hi hik
    exact h ⟨i, hi, by simpa using hik⟩

theorem distinctKeys_cons :
    DistinctKeys (i :: rows) ↔ withKey? rows i.key = none ∧ DistinctKeys rows := by
  rw [DistinctKeys, List.map_cons, List.nodup_cons, withKey?_eq_none_iff]
  rfl

theorem DistinctKeys.filter_key (h : DistinctKeys rows) (k : Text) :
    rows.filter (·.key == k) = (withKey? rows k).toList := by
  induction rows with
  | nil => rfl
  | cons i rest ih =>
    obtain ⟨hi, hrest⟩ := distinctKeys_cons.mp h
    rw [withKey?_cons]
    split
    · rename_i hk
      rw [List.filter_cons_of_pos (by simp [hk]), ih hrest, ← hk, hi]
      rfl
    · rename_i hk
      rw [List.filter_cons_of_neg (by simp [hk]), ih hrest]

theorem DistinctKeys.withKey?_key (h : DistinctKeys rows) (hi : i ∈ rows) :
    withKey? rows i.key = some i := by
  have hfound : i ∈ rows.filter (·.key == i.key) := List.mem_filter.mpr ⟨hi, by simp⟩
  rw [h.filter_key] at hfound
  simpa using hfound

/-! ## Edits -/

/-- What becomes of a row that keeps its key or goes, once rows are distinct. -/
theorem withKey?_filterMap (hf : ∀ i j, f i = some j → j.key = i.key) (h : DistinctKeys rows)
    (k : Text) : withKey? (rows.filterMap f) k = (withKey? rows k).bind f := by
  induction rows with
  | nil => rfl
  | cons i rest ih =>
    obtain ⟨hi, hrest⟩ := distinctKeys_cons.mp h
    rw [withKey?_cons]
    cases hfi : f i with
    | none =>
      rw [List.filterMap_cons_none hfi, ih hrest]
      split
      · rename_i hk
        rw [← hk, hi, Option.bind_some, hfi]
        rfl
      · rfl
    | some j =>
      rw [List.filterMap_cons_some hfi, withKey?_cons, hf i j hfi, ih hrest]
      split
      · rw [Option.bind_some, hfi]
      · rfl

theorem map_key_filterMap_sublist (hf : ∀ i j, f i = some j → j.key = i.key) :
    ((rows.filterMap f).map key).Sublist (rows.map key) := by
  induction rows with
  | nil => exact List.Sublist.slnil
  | cons i rest ih =>
    cases hfi : f i with
    | none =>
      rw [List.filterMap_cons_none hfi]
      exact ih.cons _
    | some j =>
      rw [List.filterMap_cons_some hfi, List.map_cons, List.map_cons, hf i j hfi]
      exact ih.cons_cons _

theorem DistinctKeys.filterMap (h : DistinctKeys rows)
    (hf : ∀ i j, f i = some j → j.key = i.key) : DistinctKeys (rows.filterMap f) :=
  h.sublist (map_key_filterMap_sublist hf)

theorem DistinctKeys.append_singleton (h : DistinctKeys rows) (hi : withKey? rows i.key = none) :
    DistinctKeys (rows ++ [i]) := by
  rw [DistinctKeys, List.map_append, List.nodup_append]
  refine ⟨h, by simp, ?_⟩
  intro k hk k' hk' heq
  obtain rfl : k' = i.key := by simpa using hk'
  exact withKey?_eq_none_iff.mp hi (heq ▸ hk)

/-- What is done to the rows of a key does nothing where there is none. -/
theorem filterMap_of_missing (h : withKey? rows k = none) :
    (rows.filterMap fun i => if i.key = k then f i else some i) = rows := by
  rw [withKey?_eq_none_iff, List.mem_map] at h
  refine (List.filterMap_congr ?_).trans List.filterMap_some
  intro i hi
  exact if_neg fun hk => h ⟨i, hi, hk⟩

/-- With distinct keys, an edit of the first row of a name is one of them all. -/
theorem editFirst_eq_filterMap {name : Text} {g : Item → Option Item} (h : DistinctKeys rows)
    (hg : ∀ i, Item.find? rows name = some i → g i = f i) :
    editFirst (isNamed name) g rows =
      rows.filterMap fun i => if i.key = Text.matchKey name then f i else some i := by
  induction rows with
  | nil => rfl
  | cons i rest ih =>
    obtain ⟨hi, hrest⟩ := distinctKeys_cons.mp h
    by_cases hk : i.key = Text.matchKey name
    · -- The key is that of the first row only, so no other one is concerned.
      have hothers : rest.filterMap (fun i => if i.key = Text.matchKey name then f i else some i) =
          rest := filterMap_of_missing (hk ▸ hi)
      have hgi : g i = f i := hg i (by rw [find?_eq_withKey?, withKey?_cons, if_pos hk])
      rw [editFirst_cons_pos (by simp [isNamed, hk]), hgi]
      cases hfi : f i with
      | none => rw [List.filterMap_cons_none (by rw [if_pos hk, hfi]), hothers]; rfl
      | some j => rw [List.filterMap_cons_some (by rw [if_pos hk, hfi]), hothers]; rfl
    · have hfind : Item.find? (i :: rest) name = Item.find? rest name := by
        rw [find?_eq_withKey?, withKey?_cons, if_neg hk, find?_eq_withKey?]
      rw [editFirst_cons_neg (by simp [isNamed, hk]), ih hrest fun j hj => hg j (hfind.trans hj),
        List.filterMap_cons_some (by rw [if_neg hk])]

end Item

namespace ScratchList

variable {l : ScratchList}

theorem distinctKeys_items : Item.DistinctKeys l.items ↔ Item.DistinctKeys l.rows :=
  ((Item.arrange_perm Item.byOrder l.rows).map Item.key).nodup_iff

/-- Distinct keys are in display order in any order. -/
theorem namesInDisplayOrder_of_distinctKeys (h : Item.DistinctKeys l.rows) :
    l.NamesInDisplayOrder := by
  intro i _
  have hperm : (l.items.filter (·.key == i.key)).Perm (l.rows.filter (·.key == i.key)) :=
    (Item.arrange_perm Item.byOrder l.rows).filter _
  rw [h.filter_key] at hperm ⊢
  cases hi : Item.withKey? l.rows i.key with
  | none =>
    rw [hi] at hperm
    exact List.perm_nil.mp hperm
  | some j =>
    rw [hi] at hperm
    exact List.perm_singleton.mp hperm

end ScratchList
end SpokenList
