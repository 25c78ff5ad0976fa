import SpokenList.Execution
import SpokenList.Proofs.ScratchList
import SpokenList.Proofs.Trimming

/-! # The working copy follows the list

Carrying out a plan reads the list once and then trusts its working copy.  The
copy cannot know the numbers that new rows get, so it is compared with the list
up to those (`Item.Alike`).  Two facts carry the comparison: what an entry asks
for depends on the copy only up to numbers (`Entry.asks_congr`), and a write
that goes through changes the copy as it changes any rows
(`Entry.working_eq_perform`).
-/
namespace SpokenList

theorem Text.matchKey_strip (name : Text) :
    Text.matchKey (Text.strip name) = Text.matchKey name := by
  rw [Text.matchKey, Text.strip_strip, Text.matchKey]

namespace Item

/-! ## Rows up to their numbers -/

/-- The row without its number. -/
def unnumbered (i : Item) : Item := { i with id := 0 }

/-- The same rows, but for their numbers. -/
def Alike (xs ys : List Item) : Prop := xs.map unnumbered = ys.map unnumbered

variable {xs ys : List Item} {p : Item → Bool}

theorem Alike.refl (xs : List Item) : Alike xs xs := rfl

/-- Alike rows have alike first rows that pass a test which numbers do not matter to. -/
theorem Alike.find?_of (h : Alike xs ys) (hp : ∀ i, p (unnumbered i) = p i) :
    (xs.find? p).map unnumbered = (ys.find? p).map unnumbered := by
  have hview (rows : List Item) : (rows.find? p).map unnumbered = (rows.map unnumbered).find? p := by
    rw [List.find?_map]
    exact congrArg (fun q => (rows.find? q).map unnumbered) (funext fun i => (hp i).symm)
  rw [hview, hview, h]

/-- Alike rows have alike rows of a name. -/
theorem Alike.find? (h : Alike xs ys) (name : Text) :
    (Item.find? xs name).map unnumbered = (Item.find? ys name).map unnumbered :=
  h.find?_of fun _ => rfl

theorem Alike.nextOrder (h : Alike xs ys) : Item.nextOrder xs = Item.nextOrder ys := by
  have hview (rows : List Item) : rows.map order = (rows.map unnumbered).map order := by
    rw [List.map_map]
    rfl
  rw [Item.nextOrder, Item.nextOrder, hview xs, hview ys, h]

/-- What a write makes of a row, it makes of it without its number. -/
theorem Alike.editFirst (h : Alike xs ys) (hp : ∀ i, p (unnumbered i) = p i) (w : Write) :
    Alike (Item.editFirst p w.edit xs) (Item.editFirst p w.edit ys) := by
  have hedit : ∀ i, (w.edit i).map unnumbered = w.edit (unnumbered i) := by
    intro i
    cases w <;> rfl
  unfold Alike
  rw [map_editFirst hp hedit, map_editFirst hp hedit, h]

/-- New rows at the end are alike, whatever numbers they get. -/
theorem Alike.append_row? (h : Alike xs ys) (w : Write) (m n : Int) :
    Alike (xs ++ (w.row? m (Item.nextOrder xs)).toList)
      (ys ++ (w.row? n (Item.nextOrder ys)).toList) := by
  have hrow : ((w.row? m (Item.nextOrder xs)).toList).map unnumbered =
      ((w.row? n (Item.nextOrder ys)).toList).map unnumbered := by
    rw [h.nextOrder]
    cases w <;> rfl
  unfold Alike
  rw [List.map_append, List.map_append, h, hrow]

/-- Writes keep rows alike, whatever numbers they give. -/
theorem Alike.perform (h : Alike xs ys) (w : Write) (m n : Int) :
    Alike (w.perform m xs) (w.perform n ys) := by
  have hname := h.find? w.name
  cases hx : Item.find? xs w.name with
  | some i =>
    cases hy : Item.find? ys w.name with
    | none => simp [hx, hy] at hname
    | some j =>
      rw [Write.perform_of_found hx, Write.perform_of_found hy]
      exact h.editFirst (fun _ => rfl) w
  | none =>
    cases hy : Item.find? ys w.name with
    | some j => simp [hx, hy] at hname
    | none =>
      rw [Write.perform_of_missing hx, Write.perform_of_missing hy]
      exact h.append_row? w m n

/-- A row is found by its own name as well. -/
theorem find?_own_name {rows : List Item} {name : Text} {i : Item}
    (h : Item.find? rows name = some i) : Item.find? rows i.name = some i := by
  have hkey : i.key = Text.matchKey name := by simpa [isNamed] using List.find?_some h
  have hsame : isNamed i.name = isNamed name := by
    funext j
    rw [isNamed, isNamed, ← hkey]
    rfl
  rw [Item.find?, hsame]
  exact h

/-- Blanks around a name do not matter. -/
theorem find?_strip (rows : List Item) (name : Text) :
    Item.find? rows (Text.strip name) = Item.find? rows name := by
  have hsame : isNamed (Text.strip name) = isNamed name := by
    funext i
    rw [isNamed, isNamed, Text.matchKey_strip]
  rw [Item.find?, hsame, Item.find?]

/-- A row that is adjusted by what it lacks has the quantity that was meant. -/
theorem adjusted_sub (quantity : Int) (i : Item) :
    i.adjusted (quantity - i.quantity) = { i with quantity := quantity } := by
  have hquantity : i.quantity + (quantity - i.quantity) = quantity := by omega
  rw [adjusted, hquantity]

end Item

namespace Entry

variable {policy : FloorPolicy} {working others : List Item} {e : Entry} {effect : Effect}

/-- What an entry asks for depends on the rows only up to their numbers. -/
theorem asks_congr (h : Item.Alike working others) (policy : FloorPolicy) (e : Entry) :
    (e.effect? policy working).map (fun x => (x.write, x.exhausted)) =
      (e.effect? policy others).map (fun x => (x.write, x.exhausted)) := by
  have hname := h.find? e.name
  cases hx : Item.find? working e.name with
  | none =>
    cases hy : Item.find? others e.name with
    | some j => simp [hx, hy] at hname
    | none =>
      cases e with
      | adjust e =>
        change Item.find? _ e.name = _ at hx hy
        simp only [effect?, hx, hy, Option.map_none]
      | remove e =>
        change Item.find? _ e.name = _ at hx hy
        simp only [effect?, hx, hy, Option.map_none]
      | add e =>
        change Item.find? _ e.name = _ at hx hy
        simp only [effect?, hx, hy, Option.map_some, Effect.ofAdd]
  | some i =>
    cases hy : Item.find? others e.name with
    | none => simp [hx, hy] at hname
    | some j =>
      have hij : i.name = j.name ∧ i.quantity = j.quantity := by
        simp only [hx, hy, Option.map_some, Option.some.injEq, Item.unnumbered,
          Item.mk.injEq] at hname
        exact ⟨hname.2.1, hname.2.2.1⟩
      cases e with
      | adjust e =>
        change Item.find? _ e.name = _ at hx hy
        simp only [effect?, hx, hy, Option.map_some, Effect.ofAdjust, hij.1, hij.2]
        split <;> rfl
      | remove e =>
        change Item.find? _ e.name = _ at hx hy
        simp only [effect?, hx, hy, Option.map_some, Effect.ofRemove, hij.1]
      | add e =>
        change Item.find? _ e.name = _ at hx hy
        simp only [effect?, hx, hy, Option.map_some, Effect.ofAdd, hij.1]

/-- **The copy changes as the list does.**  After a write that went through, the
working copy is what the write makes of any rows; only the number of a new row
is not known. -/
theorem working_eq_perform (h : e.effect? policy working = some effect) :
    effect.working = effect.write.perform 0 working := by
  cases e with
  | adjust e =>
    obtain ⟨row, hrow, rfl⟩ := Option.map_eq_some_iff.mp h
    have hfound := Item.find?_own_name hrow
    unfold Effect.ofAdjust
    dsimp only
    split
    · rw [Write.perform_of_found (w := .remove row.name) hfound]
      exact Item.eraseP_eq_editFirst ..
    · rw [Write.perform_of_found (w := .adjust row.name _) hfound, Item.modifyFirst_eq_editFirst]
      refine Item.editFirst_congr ?_
      intro i hi
      -- the row that is found is the one whose quantity the entry has read
      obtain rfl : row = i := Option.some.inj (hfound.symm.trans hi)
      rw [Write.edit, Item.adjusted_sub]
  | remove e =>
    obtain ⟨row, hrow, rfl⟩ := Option.map_eq_some_iff.mp h
    have hfound := Item.find?_own_name hrow
    show _ = Write.perform 0 (.remove row.name) working
    rw [Write.perform_of_found (w := .remove row.name) hfound]
    exact Item.eraseP_eq_editFirst ..
  | add e =>
    obtain rfl : Effect.ofAdd working e (Item.find? working e.name) = effect := Option.some.inj h
    cases hrow : Item.find? working e.name with
    | some row =>
      have hfound := Item.find?_own_name hrow
      show _ = Write.perform 0 (.add row.name e.quantity e.note) working
      rw [Write.perform_of_found (w := .add row.name _ _) hfound]
      exact Item.modifyFirst_eq_editFirst ..
    | none =>
      have hmissing : Item.find? working (Text.strip e.name) = none :=
        (Item.find?_strip working e.name).trans hrow
      show _ = Write.perform 0 (.add (Text.strip e.name) e.quantity e.note) working
      rw [Write.perform_of_missing (w := .add (Text.strip e.name) _ _) hmissing]
      simp [Effect.ofAdd, Write.row?]

end Entry
end SpokenList
