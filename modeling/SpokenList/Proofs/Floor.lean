import Mathlib.Data.List.Forall2
import SpokenList.Proofs.OneName

/-! # The floor of a policy

A policy sets a floor: no quantity is to fall below it (`FloorPolicy.floor`).  An
adjustment is raised by the quantity of the row that is shown first of its name,
but a scratch list applies it to the row that it keeps first.  So the floor holds
for exactly those lists where each row that adjustments can come to is kept with
no less than the quantity shown in its place (`FloorPolicy.Backs`); this is
`Execution.floor_kept_iff`.

In one direction, adjustments keep the rows backed, and removals and additions
take no quantity down (`Execution.Backed.step`, `Execution.floor_kept_step`).  In
the other, adjustments by minus one take the rows of a name down to the floor,
one after the other, until one comes up that is not backed
(`Execution.backs_of_floor_kept`).
-/
namespace SpokenList

namespace FloorPolicy

/-- No row is to have less than this.  Where rows go at zero, those that stay have
at least one. -/
def floor : FloorPolicy → Int
  | clampToZero => 0
  | _ => 1

/-- The rows of a name whose quantity adjustments can change: the first one, and
where rows go at zero, each in its turn. -/
def reach : FloorPolicy → List Item → List Item
  | deleteAtZero, rows => rows
  | _, rows => rows.take 1

/-- Of the rows of one name, those in reach of adjustments are kept with no less
than the quantities that are shown in their places. -/
def Backs (p : FloorPolicy) (shown kept : List Item) : Prop :=
  List.Forall₂ (fun i j => i.quantity ≤ j.quantity) (p.reach shown) (p.reach kept)

instance (p : FloorPolicy) (shown kept : List Item) : Decidable (p.Backs shown kept) :=
  inferInstanceAs (Decidable (List.Forall₂ _ _ _))

variable {p : FloorPolicy} {i j : Item} {rows shown kept : List Item}

theorem Backs.refl (p : FloorPolicy) (rows : List Item) : p.Backs rows rows :=
  List.forall₂_same.mpr fun _ _ => Int.le_refl _

theorem backs_nil_left : p.Backs [] kept ↔ kept = [] := by
  cases p <;> cases kept <;> simp [Backs, reach]

theorem backs_cons :
    p.Backs (i :: shown) (j :: kept) ↔
      i.quantity ≤ j.quantity ∧ (p = deleteAtZero → p.Backs shown kept) := by
  cases p <;> simp [Backs, reach]

theorem Backs.exists_cons (h : p.Backs (i :: shown) kept) : ∃ j rest, kept = j :: rest := by
  cases kept with
  | nil => cases p <;> simp [Backs, reach] at h
  | cons j rest => exact ⟨j, rest, rfl⟩

theorem floor_le_one (p : FloorPolicy) : p.floor ≤ 1 := by cases p <;> decide

/-- A quantity that has been raised is at the floor or above, unless its row goes. -/
theorem floor_le_apply {quantity : Int} (h : p.deletes (p.apply quantity) = false) :
    p.floor ≤ p.apply quantity := by
  cases p with
  | deleteAtZero =>
    have hpos : ¬ quantity ≤ 0 := by
      intro hle
      rw [deletes_apply.mpr ⟨rfl, hle⟩] at h
      cases h
    have hraised : quantity ≤ apply deleteAtZero quantity := Int.le_max_right ..
    show 1 ≤ apply deleteAtZero quantity
    omega
  | clampToOne => exact least_le_apply clampToOne quantity
  | clampToZero => exact least_le_apply clampToZero quantity

/-- Above the floor, taking one off raises nothing and makes no row go. -/
theorem apply_sub_one {quantity : Int} (h : p.floor < quantity) :
    p.apply (quantity + -1) = quantity - 1 ∧ p.deletes (quantity - 1) = false := by
  cases p <;> simp [floor, apply, least, deletes] at h ⊢ <;> omega

end FloorPolicy

/-! ## What an adjustment does to the rows of its name -/

namespace Effect

variable {policy : FloorPolicy} {working shown kept : List Item} {delta : Int} {i j : Item}

theorem write_ofAdjust (policy : FloorPolicy) (working : List Item) (delta : Int) (row : Item) :
    (ofAdjust policy working delta row).write =
      if policy.deletes (policy.apply (row.quantity + delta)) then .remove row.name
      else .adjust row.name (policy.apply (row.quantity + delta) - row.quantity) := by
  unfold ofAdjust
  dsimp only
  split <;> rfl

theorem name_ofAdjust (policy : FloorPolicy) (working : List Item) (delta : Int) (row : Item) :
    (ofAdjust policy working delta row).write.name = row.name := by
  rw [write_ofAdjust]
  split <;> rfl

/-- An adjustment keeps the rows of its name backed, and what it makes of the row
that is kept is not below the floor. -/
theorem backs_ofAdjust (h : policy.Backs (i :: shown) (j :: kept)) (working : List Item)
    (delta : Int) :
    let w := (ofAdjust policy working delta i).write
    policy.Backs ((w.edit i).toList ++ shown) ((w.edit j).toList ++ kept) ∧
      ∀ j' ∈ w.edit j, policy.floor ≤ j'.quantity := by
  intro w
  obtain ⟨hle, hrest⟩ := FloorPolicy.backs_cons.mp h
  cases hdel : policy.deletes (policy.apply (i.quantity + delta)) with
  | true =>
    have hw : w = .remove i.name := by
      show (ofAdjust policy working delta i).write = _
      rw [write_ofAdjust, if_pos hdel]
    rw [hw]
    exact ⟨hrest (FloorPolicy.deletes_apply.mp hdel).1, fun j' hj' => by cases hj'⟩
  | false =>
    have hw : w = .adjust i.name (policy.apply (i.quantity + delta) - i.quantity) := by
      show (ofAdjust policy working delta i).write = _
      rw [write_ofAdjust, if_neg (by rw [hdel]; decide)]
    have hfloor := FloorPolicy.floor_le_apply hdel
    rw [hw]
    refine ⟨FloorPolicy.backs_cons.mpr ⟨Int.add_le_add_right hle _, hrest⟩, ?_⟩
    rintro j' ⟨⟩
    -- what is kept has at least what is shown, and that is now at the floor or above
    simp only [Item.adjusted]
    omega

/-- Above the floor an adjustment by minus one takes one off. -/
theorem write_takeOne (h : policy.floor < i.quantity) :
    (ofAdjust policy working (-1) i).write = .adjust i.name (-1) := by
  have hdelta : i.quantity - 1 - i.quantity = -1 := by omega
  obtain ⟨happly, hstays⟩ := FloorPolicy.apply_sub_one h
  rw [write_ofAdjust, happly, hstays, hdelta]
  rfl

/-- Where rows go at zero, an adjustment by minus one takes the last one off. -/
theorem write_takeOne_of_one (h : i.quantity = 1) :
    (ofAdjust .deleteAtZero working (-1) i).write = .remove i.name := by
  rw [write_ofAdjust, h]
  rfl

end Effect

namespace Execution

variable {policy : FloorPolicy} {faults : Faults} {p : Progress ScratchList} {e : Entry}

/-- On a scratch list a step changes nothing, or it performs one write on the
rows and on the working copy. -/
theorem step_scratchList (policy : FloorPolicy) (faults : Faults) (p : Progress ScratchList)
    (e : Entry) :
    let q := (step policy faults p e).2
    (q.store = p.store ∧ q.working = p.working) ∨
      ∃ x, e.effect? policy p.working = some x ∧
        q.store.rows = x.write.perform p.store.nextId p.store.rows ∧
        q.working = x.write.perform 0 p.working := by
  intro q
  cases hx : e.effect? policy p.working with
  | none =>
    have hstep : q = p := by
      show (step policy faults p e).2 = p
      rw [step_of_unmatched hx]
    rw [hstep]
    exact Or.inl ⟨rfl, rfl⟩
  | some x =>
    cases hf : faults p.attempts with
    | some fault =>
      have hw : Holder.write x.write (faults p.attempts) p.store = (p.store, some fault) := by
        rw [hf]
        rfl
      have hstep : q = ⟨p.store, p.working, p.attempts + 1⟩ := by
        show (step policy faults p e).2 = _
        rw [step_of_fault hx hw]
      rw [hstep]
      exact Or.inl ⟨rfl, rfl⟩
    | none =>
      have hw : Holder.write x.write (faults p.attempts) p.store =
          (p.store.apply x.write, none) := by
        rw [hf]
        rfl
      have hstep : q = ⟨p.store.apply x.write, x.working, p.attempts + 1⟩ := by
        show (step policy faults p e).2 = _
        rw [step_of_done hx hw]
      rw [hstep]
      exact Or.inr ⟨x, rfl, p.store.rows_apply x.write, Entry.working_eq_perform hx⟩

/-! ## Adjustments keep the rows backed -/

/-- The rows of every name are backed, and none is below the floor. -/
structure Backed (policy : FloorPolicy) (p : Progress ScratchList) : Prop where
  backs : ∀ k, policy.Backs (Item.ofKey k p.working) (Item.ofKey k p.store.rows)
  floor : ∀ i ∈ p.store.rows, policy.floor ≤ i.quantity

theorem Backed.step (h : Backed policy p) (faults : Faults) (e : AdjustEntry) :
    Backed policy (step policy faults p (.adjust e)).2 := by
  obtain ⟨hstore, hworking⟩ | ⟨x, hx, hrows, hworking⟩ :=
    step_scratchList policy faults p (.adjust e)
  · exact ⟨by rw [hstore, hworking]; exact h.backs, by rw [hstore]; exact h.floor⟩
  · obtain ⟨i, hi, rfl⟩ := Option.map_eq_some_iff.mp hx
    have hname := Effect.name_ofAdjust policy p.working e.delta i
    have hkey : Text.matchKey (Effect.ofAdjust policy p.working e.delta i).write.name = i.key := by
      rw [hname, Item.key]
    obtain ⟨shown, hshown⟩ := Item.ofKey_of_find? hi
    rw [← Item.key_of_find? hi] at hshown
    have hbacks := h.backs i.key
    rw [hshown] at hbacks
    obtain ⟨j, kept, hkept⟩ := hbacks.exists_cons
    rw [hkept] at hbacks
    obtain ⟨hafter, hfloor⟩ := Effect.backs_ofAdjust hbacks p.working e.delta
    refine ⟨fun k => ?_, fun j' hj' => ?_⟩
    · rw [hrows, hworking]
      by_cases hk : i.key = k
      · subst hk
        rw [Write.ofKey_perform_cons _ hkey hshown, Write.ofKey_perform_cons _ hkey hkept]
        exact hafter
      · rw [Write.ofKey_perform_of_ne _ (by rw [hkey]; exact hk),
          Write.ofKey_perform_of_ne _ (by rw [hkey]; exact hk)]
        exact h.backs k
    · rw [hrows] at hj'
      rcases Write.mem_perform hj' with hj' | ⟨j₀, hj₀, hedit⟩ | hrow
      · exact h.floor j' hj'
      · -- the row that is found is the first one that is kept
        have hfirst : Item.find? p.store.rows (Effect.ofAdjust policy p.working e.delta i).write.name =
            some j := by
          rw [← Item.head?_ofKey, hkey, hkept, List.head?_cons]
        obtain rfl : j = j₀ := Option.some.inj (hfirst.symm.trans hj₀)
        exact hfloor j' hedit
      · rw [Effect.write_ofAdjust] at hrow
        split at hrow <;> cases hrow

theorem Backed.run (h : Backed policy p) (faults : Faults) (entries : List AdjustEntry) :
    Backed policy (run policy faults p (entries.map .adjust)).2 := by
  induction entries generalizing p with
  | nil => exact h
  | cons e rest ih =>
    rw [List.map_cons, run_cons]
    exact ih (h.step faults e)

/-! ## Removals and additions take nothing down -/

/-- A row that a removal or an addition makes is not below the floor. -/
theorem floor_kept_step (faults : Faults) (hadd : ∀ a, e = .add a → 1 ≤ a.quantity)
    (hadjust : e.operation ≠ .adjust) (h : ∀ i ∈ p.store.rows, policy.floor ≤ i.quantity) :
    ∀ i ∈ (step policy faults p e).2.store.rows, policy.floor ≤ i.quantity := by
  obtain ⟨hstore, _⟩ | ⟨x, hx, hrows, _⟩ := step_scratchList policy faults p e
  · rw [hstore]
    exact h
  · rw [hrows]
    intro i hi
    cases e with
    | adjust e => exact absurd rfl hadjust
    | remove e =>
      -- a removal leaves rows that were there before, and no others
      obtain ⟨row, hrow, rfl⟩ := Option.map_eq_some_iff.mp hx
      rcases Write.mem_perform hi with hi | ⟨j, _, hedit⟩ | hnew
      · exact h i hi
      · cases hedit
      · cases hnew
    | add e =>
      have hquantity : 1 ≤ e.quantity := hadd e rfl
      have hone := policy.floor_le_one
      obtain ⟨name, _, hw⟩ := Entry.write_add hx
      rw [hw] at hi
      rcases Write.mem_perform hi with hi | ⟨j, hj, hedit⟩ | hnew
      · exact h i hi
      · have hj := h j (List.mem_of_find?_eq_some hj)
        cases hedit
        simp only [Item.increased]
        omega
      · cases hnew
        exact Int.le_trans hone hquantity

theorem floor_kept_run (faults : Faults) {entries : List Entry}
    (hadd : ∀ a, .add a ∈ entries → 1 ≤ a.quantity)
    (hadjust : ∀ e ∈ entries, e.operation ≠ .adjust)
    (h : ∀ i ∈ p.store.rows, policy.floor ≤ i.quantity) :
    ∀ i ∈ (run policy faults p entries).2.store.rows, policy.floor ≤ i.quantity := by
  induction entries generalizing p with
  | nil => exact h
  | cons e rest ih =>
    rw [run_cons]
    refine ih (fun a ha => hadd a (List.mem_cons_of_mem e ha))
      (fun e' he' => hadjust e' (List.mem_cons_of_mem e he')) ?_
    exact floor_kept_step faults (fun a ha => hadd a (by simp [ha])) (hadjust e (by simp)) h

/-- **Backed rows never fall below the floor**, whatever is asked and whichever
writes fail. -/
theorem floor_kept_of_backs {limits : Limits} {plan : Plan} {l : ScratchList} (faults : Faults)
    (hplan : plan.Admissible limits) (hl : ∀ i ∈ l.rows, policy.floor ≤ i.quantity)
    (hbacks : ∀ k, policy.Backs (Item.ofKey k l.items) (Item.ofKey k l.rows)) :
    ∀ i ∈ (ofPlan policy faults plan l.items l).store.rows, policy.floor ≤ i.quantity := by
  have hstart : Backed policy ⟨l, l.items, 0⟩ := ⟨hbacks, hl⟩
  -- the adjustments come first; after them only the floor matters, and no copy of the rows
  rw [ofPlan_eq, Plan.entries, List.append_assoc, run_append]
  refine floor_kept_run faults ?_ ?_ (hstart.run faults plan.adjust).floor
  · intro a ha
    have hmem : a ∈ plan.add := by simpa using ha
    exact (hplan.1 a hmem).2.1
  · intro e he
    rcases List.mem_append.mp he with he | he
    · obtain ⟨_, _, rfl⟩ := List.mem_map.mp he
      intro h
      cases h
    · obtain ⟨_, _, rfl⟩ := List.mem_map.mp he
      intro h
      cases h

/-! ## Adjustments come to every row in reach -/

/-- What the rows have in all; adjustments by minus one take it down. -/
def total (rows : List Item) : Nat := rows.foldr (fun i n => i.quantity.toNat + n) 0

theorem total_cons (i : Item) (rows : List Item) :
    total (i :: rows) = i.quantity.toNat + total rows := rfl

/-- One more off the first row of a name, with no write failing. -/
theorem step_takeOne (policy : FloorPolicy) {name : Text} {i j : Item} {shown kept : List Item}
    (hshown : Item.ofKey (Text.matchKey name) p.working = i :: shown)
    (hkept : Item.ofKey (Text.matchKey name) p.store.rows = j :: kept) :
    let w := (Effect.ofAdjust policy p.working (-1) i).write
    let q := (step policy Faults.none p (.adjust ⟨name, -1⟩)).2
    Item.ofKey (Text.matchKey name) q.working = (w.edit i).toList ++ shown ∧
      Item.ofKey (Text.matchKey name) q.store.rows = (w.edit j).toList ++ kept := by
  intro w q
  have hfound : Item.find? p.working name = some i := by
    rw [← Item.head?_ofKey, hshown, List.head?_cons]
  have hkey : Text.matchKey w.name = Text.matchKey name := by
    rw [Effect.name_ofAdjust, ← Item.key_of_find? hfound, Item.key]
  have hx : (Entry.adjust ⟨name, -1⟩).effect? policy p.working =
      some (Effect.ofAdjust policy p.working (-1) i) := by
    simp only [Entry.effect?, hfound, Option.map_some]
  have hq : q = ⟨p.store.apply w, (Effect.ofAdjust policy p.working (-1) i).working,
      p.attempts + 1⟩ := congrArg Prod.snd (step_of_done hx rfl)
  rw [hq]
  dsimp only
  rw [Entry.working_eq_perform hx, ScratchList.rows_apply]
  exact ⟨Write.ofKey_perform_cons 0 hkey hshown, Write.ofKey_perform_cons _ hkey hkept⟩

/-- If the floor is kept however many are taken off the rows of a name, then these
rows are backed. -/
theorem backs_of_floor_kept {name : Text} {shown kept : List Item}
    (hworking : Item.ofKey (Text.matchKey name) p.working = shown)
    (hrows : Item.ofKey (Text.matchKey name) p.store.rows = kept)
    (hlength : shown.length = kept.length) (hshown : ∀ i ∈ shown, policy.floor ≤ i.quantity)
    (hkept : ∀ n, ∀ i ∈ (run policy Faults.none p
      (List.replicate n (.adjust ⟨name, -1⟩))).2.store.rows, policy.floor ≤ i.quantity) :
    policy.Backs shown kept := by
  -- every step takes one off what the rows in front have, and rows at the floor go or stop it
  induction htotal : total shown using Nat.strong_induction_on generalizing p shown kept with
  | _ m ih =>
  cases shown with
  | nil => exact FloorPolicy.backs_nil_left.mpr (List.eq_nil_of_length_eq_zero hlength.symm)
  | cons i shown =>
    cases kept with
    | nil => cases hlength
    | cons j kept =>
      obtain ⟨hworking', hrows'⟩ := step_takeOne policy hworking hrows
      obtain ⟨hi, hothers⟩ := List.forall_mem_cons.mp hshown
      have hmem : j ∈ p.store.rows := (Item.mem_ofKey.mp (hrows ▸ List.mem_cons_self ..)).1
      have hj : policy.floor ≤ j.quantity := hkept 0 j hmem
      have hnext := fun n => hkept (n + 1)
      simp only [List.replicate_succ, run_cons] at hnext
      have hfloor : 0 ≤ policy.floor := by cases policy <;> decide
      by_cases hlt : policy.floor < i.quantity
      · rw [Effect.write_takeOne hlt] at hworking' hrows'
        have hbacks := ih _ ?_ hworking' hrows' ?_ ?_ hnext rfl
        · obtain ⟨hle, hrest⟩ := FloorPolicy.backs_cons.mp hbacks
          exact FloorPolicy.backs_cons.mpr ⟨Int.le_of_add_le_add_right hle, hrest⟩
        · show total (i.adjusted (-1) :: shown) < m
          rw [← htotal, total_cons, total_cons]
          simp only [Item.adjusted]
          omega
        · exact hlength
        · refine List.forall_mem_cons.mpr ⟨?_, hothers⟩
          simp only [Item.adjusted]
          omega
      · refine FloorPolicy.backs_cons.mpr ⟨by omega, ?_⟩
        rintro rfl
        -- where rows go at zero, the next row of the name comes to the front
        have hone : i.quantity = 1 := by
          have hi' : 1 ≤ i.quantity := hi
          have hlt' : ¬ 1 < i.quantity := hlt
          omega
        rw [Effect.write_takeOne_of_one hone] at hworking' hrows'
        refine ih _ ?_ hworking' hrows' (Nat.succ.inj hlength) hothers hnext rfl
        rw [← htotal]
        rw [total_cons, hone]
        exact Nat.lt_add_of_pos_left (by decide)

/-! ## Lists that keep the floor -/

/-- Rows that are kept in the order in which they are shown back each other. -/
theorem backs_of_namesInDisplayOrder {l : ScratchList} (h : l.NamesInDisplayOrder)
    (policy : FloorPolicy) (k : Text) :
    policy.Backs (Item.ofKey k l.items) (Item.ofKey k l.rows) := by
  have hsame : Item.ofKey k l.items = Item.ofKey k l.rows := h.filter_key k
  rw [hsame]
  exact FloorPolicy.Backs.refl policy _

/-- So the floor is kept where names are in display order, and all the more where no
two rows share a name. -/
theorem floor_kept_of_namesInDisplayOrder {limits : Limits} {plan : Plan} {l : ScratchList}
    (h : l.NamesInDisplayOrder) (faults : Faults) (hplan : plan.Admissible limits)
    (hl : ∀ i ∈ l.rows, policy.floor ≤ i.quantity) :
    ∀ i ∈ (ofPlan policy faults plan l.items l).store.rows, policy.floor ≤ i.quantity :=
  floor_kept_of_backs faults hplan hl (backs_of_namesInDisplayOrder h policy)

/-- **The floor is kept if and only if the rows are backed.**  A list that has
nothing below the floor keeps to it under all plans, whichever writes fail, if and
only if each row in reach of adjustments is kept with no less than the quantity
that is shown in its place. -/
theorem floor_kept_iff (policy : FloorPolicy) (limits : Limits) (hlimits : 1 ≤ limits.quantity)
    (l : ScratchList) (hl : ∀ i ∈ l.items, policy.floor ≤ i.quantity) :
    (∀ plan faults, Plan.Admissible limits plan →
      ∀ i ∈ (ofPlan policy faults plan l.items l).store.items, policy.floor ≤ i.quantity) ↔
    ∀ i ∈ l.rows, policy.Backs (Item.ofKey i.key l.items) (Item.ofKey i.key l.rows) := by
  have hrows : ∀ i ∈ l.rows, policy.floor ≤ i.quantity := fun i hi =>
    hl i (ScratchList.mem_items.mpr hi)
  constructor
  · intro h i hi
    -- a name of the row that is not empty, whatever the row is called
    have hkey : Text.matchKey (' ' :: i.name) = i.key := by
      show Text.lower (Text.trim Text.isBlank ([' '] ++ i.name)) = _
      rw [Text.trim_append_left fun c hc => by rw [List.mem_singleton.mp hc]; decide]
      rfl
    rw [← hkey]
    refine backs_of_floor_kept (p := ⟨l, l.items, 0⟩) rfl rfl ?_ ?_ ?_
    · exact ((Item.arrange_perm Item.byOrder l.rows).filter _).length_eq
    · exact fun j hj => hl j (Item.mem_ofKey.mp hj).1
    · intro n j hj
      let plan : Plan := ⟨[], [], List.replicate n ⟨' ' :: i.name, -1⟩, []⟩
      have hplan : plan.Admissible limits := by
        refine ⟨nofun, nofun, fun e he => ?_⟩
        rw [List.eq_of_mem_replicate he]
        have hone : (-1 : Int) ≤ limits.quantity := by omega
        exact ⟨nofun, Int.neg_le_neg hlimits, hone, nofun⟩
      refine h plan Faults.none hplan j (ScratchList.mem_items.mpr ?_)
      rw [ofPlan_eq, show plan.entries = List.replicate n (.adjust ⟨' ' :: i.name, -1⟩) by
        simp [plan, Plan.entries]]
      exact hj
  · intro h plan faults hplan i hi
    refine floor_kept_of_backs faults hplan hrows ?_ i (ScratchList.mem_items.mp hi)
    intro k
    cases hk : Item.ofKey k l.rows with
    | nil =>
      have hnone : Item.ofKey k l.items = [] :=
        List.perm_nil.mp (hk ▸ (Item.arrange_perm Item.byOrder l.rows).filter _)
      rw [hnone]
      exact FloorPolicy.Backs.refl policy []
    | cons j rest =>
      obtain ⟨hj, rfl⟩ := Item.mem_ofKey.mp (hk ▸ List.mem_cons_self .. : j ∈ Item.ofKey k l.rows)
      rw [← hk]
      exact h j hj

/-- Two rows are kept in another order than they are shown in, but the one that
is kept first has more. -/
theorem floor_kept_moreKeptFirst :
    let l := ScratchList.ofItems [⟨1, "milk", 5, none, 1⟩, ⟨2, "Milk", 2, none, 0⟩]
    1 ≤ Limits.standard.quantity ∧ (∀ i ∈ l.items, FloorPolicy.clampToOne.floor ≤ i.quantity) ∧
      ∀ plan faults, Plan.Admissible .standard plan →
        ∀ i ∈ (ofPlan .clampToOne faults plan l.items l).store.items,
          FloorPolicy.clampToOne.floor ≤ i.quantity := by
  intro l
  have hlimits : 1 ≤ Limits.standard.quantity := by decide
  have hl : ∀ i ∈ l.items, FloorPolicy.clampToOne.floor ≤ i.quantity := by decide +kernel
  exact ⟨hlimits, hl, (floor_kept_iff .clampToOne .standard hlimits l hl).mpr (by decide +kernel)⟩

/-- The row that is shown first has five, and is brought down to two; but the row
that is kept first has one, and three are taken off that. -/
theorem floor_lost_lessKeptFirst :
    let l := ScratchList.ofItems [⟨1, "milk", 1, none, 1⟩, ⟨2, "milk", 5, none, 0⟩]
    let plan : Plan := ⟨[], [], [⟨"milk", -3⟩], []⟩
    let x := ofPlan .clampToOne Faults.none plan l.items l
    plan.Admissible .standard ∧ (∀ i ∈ l.items, FloorPolicy.clampToOne.floor ≤ i.quantity) ∧
      ∃ i ∈ x.store.items, i.quantity = -2 ∧ ¬ FloorPolicy.clampToOne.floor ≤ i.quantity := by
  intro l plan x
  decide +kernel

end Execution
end SpokenList
