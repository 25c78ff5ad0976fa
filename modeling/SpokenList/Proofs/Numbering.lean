import SpokenList.Proofs.DistinctKeys
import SpokenList.Proofs.OneName
import SpokenList.Proofs.Sessions

/-! # The numbers of rows

A scratch list gives numbers in ascending order and takes none back, so a number
tells a row from every other that was ever on the list.  What a row is shown as,
its number, its name and its place, does not change for as long as it is there.

A call either puts one row at the end of what is shown (`Creates`), or only changes
quantities and notes and takes a row off (`write_of_creates`,
`write_of_not_creates`).  Over a session this adds up to `Continues`: what is left
of an earlier list comes first, in the order that it had, and then what was put on
the list since, with numbers that the counter had not come to.  The session itself
keeps the counter above all numbers (`Numbered`).  The theorem about sessions reads
off these two (`session_keeps_seats`).
-/
namespace SpokenList

namespace Item

variable {xs ys rows : List Item} {p : Item → Bool} {g : Item → Option Item}

/-- An edit that changes no seat gives nobody a new one. -/
theorem map_seat_editFirst_sublist (hg : ∀ i j, g i = some j → j.seat = i.seat) :
    ((editFirst p g rows).map seat).Sublist (rows.map seat) := by
  induction rows with
  | nil => exact List.Sublist.slnil
  | cons i rest ih =>
    unfold editFirst
    split
    · cases hi : g i with
      | none => exact List.sublist_cons_self _ _
      | some j =>
        rw [Option.toList_some, List.singleton_append, List.map_cons, hg i j hi]
        exact List.Sublist.refl _
    · exact ih.cons_cons _

/-- Rows are shown by their seats alone. -/
theorem map_seat_arrange_sublist (h : (xs.map seat).Sublist (ys.map seat)) :
    ((arrange byOrder xs).map seat).Sublist ((arrange byOrder ys).map seat) := by
  obtain ⟨zs, hzs, hsame⟩ := List.sublist_map_iff.mp h
  have hshown : (arrange byOrder xs).map seat = (arrange byOrder zs).map seat := by
    refine map_arrange_congr ?_ hsame
    intro i i' j j' hi hj
    rw [byOrder, byOrder, order_of_seat hi, order_of_seat hj]
  rw [hshown]
  exact (arrange_sublist arranges_byOrder hzs).map seat

theorem map_id_sublist (h : (xs.map seat).Sublist (ys.map seat)) :
    (xs.map Item.id).Sublist (ys.map Item.id) := by
  have hids := h.map Prod.fst
  rwa [List.map_map, List.map_map] at hids

theorem map_key_sublist (h : (xs.map seat).Sublist (ys.map seat)) :
    (xs.map key).Sublist (ys.map key) := by
  have hkeys := h.map fun s : Int × Text × Int => Text.matchKey s.2.1
  rwa [List.map_map, List.map_map] at hkeys

end Item

namespace ScratchList

variable {l later last : ScratchList} {call : Holder.Call}

/-- The numbers of the rows, as they are shown. -/
def numbers (l : ScratchList) : List Int := l.items.map Item.id

/-- The call puts a row on the list: it adds an item that no row is named for, and
no fault strikes it. -/
def Creates (l : ScratchList) (call : Holder.Call) : Prop :=
  call.fault = none ∧ call.write.operation = .add ∧ Item.find? l.items call.write.name = none

instance (l : ScratchList) (call : Holder.Call) : Decidable (l.Creates call) :=
  inferInstanceAs (Decidable (_ ∧ _ ∧ _))

/-! ## One call -/

/-- The row that is created is the last one, and has the number of the counter. -/
theorem write_of_creates (h : l.Creates call) :
    ∃ i, (l.write call.write call.fault).1.items = l.items ++ [i] ∧ i.id = l.nextId ∧
      (l.write call.write call.fault).1.nextId = l.nextId + 1 ∧
      Item.find? l.items call.write.name = none ∧ i.key = Text.matchKey call.write.name := by
  obtain ⟨w, fault⟩ := call
  obtain ⟨rfl, hadd, hmissing⟩ := h
  cases w with
  | adjust name delta => cases hadd
  | remove name => cases hadd
  | add name quantity note =>
    change Item.find? l.items name = none at hmissing
    refine ⟨⟨l.nextId, Text.strip name, quantity, note, Item.nextOrder l.items⟩, ?_, rfl, ?_,
      hmissing, Text.matchKey_strip name⟩
    · exact (items_apply_of_missing (w := .add name quantity note) hmissing).trans
        (Write.perform_add_of_missing l.nextId quantity note hmissing)
    · show (l.apply (.add name quantity note)).nextId = l.nextId + 1
      rw [apply, find?_items_eq_none_iff.mp hmissing]
      rfl

/-- Any other call leaves rows in their seats, or takes them off. -/
theorem write_of_not_creates (h : ¬ l.Creates call) :
    ((l.write call.write call.fault).1.items.map Item.seat).Sublist (l.items.map Item.seat) ∧
      (l.write call.write call.fault).1.nextId = l.nextId := by
  obtain ⟨w, fault⟩ := call
  cases fault with
  | some fault => exact ⟨List.Sublist.refl _, rfl⟩
  | none =>
    show ((l.apply w).items.map Item.seat).Sublist (l.items.map Item.seat) ∧
      (l.apply w).nextId = l.nextId
    by_cases hmissing : Item.find? l.items w.name = none
    · -- nothing is found, and nothing is added
      have hadd : w.operation ≠ .add := fun hadd => h ⟨rfl, hadd, hmissing⟩
      rw [items_apply_of_missing hmissing, Write.perform_of_missing hmissing]
      cases w with
      | add name quantity note => exact absurd rfl hadd
      | adjust name delta => exact ⟨by simp [Write.row?], rfl⟩
      | remove name => exact ⟨by simp [Write.row?], rfl⟩
    · have hrows := mt find?_items_eq_none_iff.mpr hmissing
      obtain ⟨i, hi⟩ := Option.ne_none_iff_exists'.mp hrows
      constructor
      · rw [items, items, rows_apply, Write.perform_of_found hi]
        exact Item.map_seat_arrange_sublist
          (Item.map_seat_editFirst_sublist fun _ _ => Write.seat_edit)
      · cases w with
        | adjust name delta => rfl
        | remove name => rfl
        | add name quantity note =>
          change Item.find? l.rows name = some i at hi
          rw [apply, hi]
          rfl

/-! ## Sessions -/

/-- All numbers are distinct, and the counter is above them. -/
structure Numbered (l : ScratchList) : Prop where
  distinct : l.numbers.Nodup
  below : ∀ n ∈ l.numbers, n < l.nextId

theorem numbered_ofItems {rows : List Item} (h : (rows.map Item.id).Nodup) :
    (ofItems rows).Numbered where
  distinct := ((Item.arrange_perm Item.byOrder rows).map Item.id).nodup_iff.mpr h
  below := by
    intro n hn
    obtain ⟨i, hi, rfl⟩ := List.mem_map.mp hn
    exact Item.lt_numberAfter (List.mem_map_of_mem (mem_items.mp hi))

theorem Numbered.write (h : l.Numbered) (call : Holder.Call) :
    (l.write call.write call.fault).1.Numbered := by
  by_cases hcreates : l.Creates call
  · obtain ⟨i, hitems, hid, hnext, -⟩ := write_of_creates hcreates
    have hnumbers : (l.write call.write call.fault).1.numbers = l.numbers ++ [l.nextId] := by
      rw [numbers, hitems, List.map_append, List.map_singleton, hid, numbers]
    refine ⟨?_, fun n hn => ?_⟩
    · rw [hnumbers, List.nodup_append]
      refine ⟨h.distinct, by simp, fun n hn m hm => ?_⟩
      have hlt := h.below n hn
      rw [List.mem_singleton] at hm
      omega
    · rw [hnumbers, List.mem_append, List.mem_singleton] at hn
      rw [hnext]
      rcases hn with hn | rfl
      · have hlt := h.below n hn
        omega
      · omega
  · obtain ⟨hseats, hnext⟩ := write_of_not_creates hcreates
    have hnumbers := Item.map_id_sublist hseats
    refine ⟨h.distinct.sublist hnumbers, fun n hn => ?_⟩
    rw [hnext]
    exact h.below n (hnumbers.subset hn)

/-- What is left of an earlier list stands first, in the order that it had there;
what was put on the list since has numbers that the counter had not come to. -/
structure Continues (l later : ScratchList) : Prop where
  counter : l.nextId ≤ later.nextId
  seats : ∃ kept new, later.items.map Item.seat = kept ++ new ∧
    kept.Sublist (l.items.map Item.seat) ∧ ∀ s ∈ new, l.nextId ≤ s.1

theorem Continues.refl (l : ScratchList) : l.Continues l :=
  ⟨Int.le_refl _, _, [], (List.append_nil _).symm, List.Sublist.refl _, nofun⟩

theorem Continues.trans (h : l.Continues later) (h' : later.Continues last) :
    l.Continues last := by
  obtain ⟨hcounter, kept, new, hlater, hkept, hnew⟩ := h
  obtain ⟨hcounter', kept', new', hlast, hkept', hnew'⟩ := h'
  rw [hlater] at hkept'
  -- what was kept the second time had been kept the first time, or was new then
  obtain ⟨still, recent, rfl, hstill, hrecent⟩ := List.sublist_append_iff.mp hkept'
  refine ⟨Int.le_trans hcounter hcounter', still, recent ++ new', ?_, hstill.trans hkept, ?_⟩
  · rw [hlast, List.append_assoc]
  · intro s hs
    rcases List.mem_append.mp hs with hs | hs
    · exact hnew s (hrecent.subset hs)
    · exact Int.le_trans hcounter (hnew' s hs)

theorem continues_write (l : ScratchList) (call : Holder.Call) :
    l.Continues (l.write call.write call.fault).1 := by
  by_cases hcreates : l.Creates call
  · obtain ⟨i, hitems, hid, hnext, -⟩ := write_of_creates hcreates
    refine ⟨by omega, l.items.map Item.seat, [i.seat], ?_, List.Sublist.refl _, ?_⟩
    · rw [hitems, List.map_append, List.map_singleton]
    · intro s hs
      obtain rfl := List.mem_singleton.mp hs
      exact Int.le_of_eq hid.symm
  · obtain ⟨hseats, hnext⟩ := write_of_not_creates hcreates
    exact ⟨Int.le_of_eq hnext.symm, _, [], (List.append_nil _).symm, hseats, nofun⟩

theorem distinctKeys_write (h : Item.DistinctKeys l.items) (call : Holder.Call) :
    Item.DistinctKeys (l.write call.write call.fault).1.items := by
  by_cases hcreates : l.Creates call
  · obtain ⟨i, hitems, -, -, hmissing, hkey⟩ := write_of_creates hcreates
    rw [hitems]
    refine h.append_singleton ?_
    rwa [hkey, ← Item.find?_eq_withKey?]
  · exact h.sublist (Item.map_key_sublist (write_of_not_creates hcreates).1)

/-- Whatever one call keeps, a session keeps. -/
theorem after_induction {motive : ScratchList → Prop}
    (h : ∀ (l : ScratchList) (call : Holder.Call), motive l →
      motive (l.write call.write call.fault).1) (hl : motive l) (calls : List Holder.Call) :
    motive (Holder.after l calls) := by
  induction calls generalizing l with
  | nil => exact hl
  | cons call rest ih => exact ih (h l call hl)

theorem Numbered.after (h : l.Numbered) (calls : List Holder.Call) :
    (Holder.after l calls).Numbered :=
  after_induction (fun _ call hlater => hlater.write call) h calls

theorem distinctKeys_after (h : Item.DistinctKeys l.items) (calls : List Holder.Call) :
    Item.DistinctKeys (Holder.after l calls).items :=
  after_induction (motive := fun l => Item.DistinctKeys l.items)
    (fun _ call hlater => distinctKeys_write hlater call) h calls

theorem continues_after (l : ScratchList) (calls : List Holder.Call) :
    l.Continues (Holder.after l calls) :=
  after_induction (fun later call h => h.trans (continues_write later call)) (.refl l) calls

/-- **Rows keep their seats, and their numbers to themselves.**  However a session
goes on from one moment to a later one, on a list whose rows began with distinct
numbers:

* numbers are distinct, and match keys if they were to begin with;
* the rows that are left have the numbers, names and places that they had, and are
  shown in the same order;
* one more call either puts a row at the end of those that are shown, with a number
  that was not on the list at any moment before, or gives no number to any row. -/
theorem session_keeps_seats {rows : List Item} (hrows : (rows.map Item.id).Nodup)
    (before between : List Holder.Call) :
    let here := Holder.after (ofItems rows) before
    let there := Holder.after here between
    there.numbers.Nodup ∧
      (Item.DistinctKeys rows → Item.DistinctKeys there.items) ∧
      ((there.items.filter fun i => i.id ∈ here.numbers).map Item.seat).Sublist
        (here.items.map Item.seat) ∧
      ∀ call, let next := (there.write call.write call.fault).1
        (there.Creates call → ∃ i, next.items = there.items ++ [i] ∧ i.id ∉ here.numbers) ∧
        (¬ there.Creates call → (next.items.map Item.seat).Sublist (there.items.map Item.seat)) := by
  intro here there
  have hhere : here.Numbered := (numbered_ofItems hrows).after before
  have hthere : there.Numbered := hhere.after between
  have hcontinues : here.Continues there := continues_after here between
  obtain ⟨hcounter, kept, new, hseats, hkept, hnew⟩ := hcontinues
  refine ⟨hthere.distinct, fun hkeys => ?_, ?_, fun call => ⟨fun hcreates => ?_, fun hnot => ?_⟩⟩
  · exact distinctKeys_after (distinctKeys_after (distinctKeys_items.mpr hkeys) before) between
  · have hnone : new.filter (fun s => decide (s.1 ∈ here.numbers)) = [] := by
      refine List.filter_eq_nil_iff.mpr fun s hs hmem => ?_
      have hlt := hhere.below s.1 (of_decide_eq_true hmem)
      have hle := hnew s hs
      omega
    have hfilter : (there.items.filter fun i => i.id ∈ here.numbers).map Item.seat =
        (there.items.map Item.seat).filter fun s => decide (s.1 ∈ here.numbers) := by
      rw [List.filter_map]
      rfl
    rw [hfilter, hseats, List.filter_append, hnone, List.append_nil]
    exact List.filter_sublist.trans hkept
  · obtain ⟨i, hitems, hid, -⟩ := write_of_creates hcreates
    refine ⟨i, hitems, fun hmem => ?_⟩
    have hlt := hhere.below i.id hmem
    omega
  · exact (write_of_not_creates hnot).1

/-- Eggs had the number 8, and get another one when they come back. -/
theorem session_keeps_seats_eggsAgain :
    let rows : List Item :=
      [⟨3, "Milk", 1, none, 5⟩, ⟨-2, "bread", 2, some "rye", -1⟩, ⟨7, "tea", 1, none, 5⟩]
    let here := Holder.after (ofItems rows)
      [⟨.add "Eggs" 6 none, none⟩, ⟨.remove "milk", some ⟨.value, []⟩⟩]
    let there := Holder.after here
      [⟨.remove " EGGS ", none⟩, ⟨.adjust "MILK" 2, none⟩, ⟨.remove "tea", none⟩,
       ⟨.add "Bread" 1 none, none⟩]
    let next := (there.write (.add "eggs" 12 none) none).1
    (rows.map Item.id).Nodup ∧ here.numbers = [-2, 3, 7, 8] ∧ there.numbers = [-2, 3] ∧
      ∃ i, next.items = there.items ++ [i] ∧ i.id ∉ here.numbers := by
  intro rows here there next
  have hrows : (rows.map Item.id).Nodup := by decide
  have hcreates : there.Creates ⟨.add "eggs" 12 none, none⟩ := by decide +kernel
  refine ⟨hrows, by decide +kernel, by decide +kernel, ?_⟩
  exact ((session_keeps_seats hrows _ _).2.2.2 ⟨.add "eggs" 12 none, none⟩).1 hcreates

end ScratchList
end SpokenList
