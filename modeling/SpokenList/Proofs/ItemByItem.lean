import SpokenList.Proofs.Standing

/-! # A plan, item by item

What a plan means for one item is told in three phases (`Standing.afterPlan`): its
adjustments of the item act on it in turn, then a removal of the item takes it off, and
then its additions put it on the list or raise it.

The rows that a plan leaves fall into two parts: those that were there before, in
the places that they had, and those that the plan put on the list, which come
last in the order in which they were first asked for.  Adjustments and removals
only ever take rows off (`Execution.run_edits`), additions take none off
(`Execution.run_adds`), and a plan makes all of the former before the latter.
What is reported of an entry is told by the phase that it is in
(`Execution.outcome_of_adjust`, `Execution.outcome_of_remove`,
`Execution.outcome_of_add`).  With `Execution.run_standing` this is the whole meaning
of a plan for a list whose rows have distinct keys (`Execution.ofPlan_wentItemByItem`).
-/
namespace SpokenList

theorem Item.isNone_withKey? (rows : List Item) (k : Text) :
    (Item.withKey? rows k).isNone = decide (k ∉ rows.map Item.key) := by
  rw [Bool.eq_iff_iff, Option.isNone_iff_eq_none, Item.withKey?_eq_none_iff, decide_eq_true_iff]

/-- The keys that are missing once a row has been put at the end. -/
theorem Item.filter_missing_append (rows : List Item) (i : Item) (keys : List Text) :
    (keys.filter fun k => (Item.withKey? (rows ++ [i]) k).isNone) =
      (keys.filter fun k => (Item.withKey? rows k).isNone).filter fun k => !k == i.key := by
  rw [List.filter_filter]
  refine List.filter_congr fun k _ => ?_
  rw [Item.withKey?_append, Item.withKey?_cons]
  by_cases hk : i.key = k
  · simp [hk]
  · have hk' : k ≠ i.key := fun heq => hk heq.symm
    rw [if_neg hk]
    simp [hk', Item.withKey?]

/-- Rows in the same seats have the same keys. -/
theorem Item.map_key_of_map_seat {rows rows' : List Item}
    (h : rows.map Item.seat = rows'.map Item.seat) : rows.map Item.key = rows'.map Item.key := by
  have hkeys := congrArg (List.map fun seat : Int × Text × Int => Text.matchKey seat.2.1) h
  rw [List.map_map, List.map_map] at hkeys
  exact hkeys

/-- Rows that keep their seats or go leave the seats of those that stay. -/
theorem Item.map_seat_filterMap {f : Item → Option Item}
    (hf : ∀ i j, f i = some j → j.seat = i.seat) (rows : List Item) :
    (rows.filterMap f).map Item.seat = (rows.filter fun i => (f i).isSome).map Item.seat := by
  induction rows with
  | nil => rfl
  | cons i rest ih =>
    cases hi : f i with
    | none => rw [List.filterMap_cons_none hi, List.filter_cons_of_neg (by simp [hi]), ih]
    | some j =>
      rw [List.filterMap_cons_some hi, List.filter_cons_of_pos (by simp [hi]), List.map_cons,
        List.map_cons, hf i j hi, ih]

/-- Texts of one kind are told apart as they are among all. -/
theorem Text.filter_eraseDups (p : Text → Bool) (xs : List Text) :
    xs.eraseDups.filter p = (xs.filter p).eraseDups := by
  match xs with
  | [] => rfl
  | x :: rest =>
    have hlength := List.length_filter_le (fun y => !y == x) rest
    have hrest := Text.filter_eraseDups p (rest.filter fun y => !y == x)
    rw [List.eraseDups_cons]
    cases hx : p x with
    | true =>
      rw [List.filter_cons_of_pos hx, List.filter_cons_of_pos hx, List.eraseDups_cons, hrest,
        List.filter_filter, List.filter_filter]
      simp only [Bool.and_comm]
    | false =>
      -- The duplicates of `x` are not of the kind either.
      have hothers : rest.filter (fun y => p y && !y == x) = rest.filter p := by
        refine List.filter_congr fun y _ => ?_
        by_cases hy : y = x
        · rw [hy, hx]
          rfl
        · simp [hy]
      rw [List.filter_cons_of_neg (by simp [hx]), List.filter_cons_of_neg (by simp [hx]), hrest,
        List.filter_filter, hothers]
termination_by xs.length
decreasing_by
  rw [List.length_cons]
  omega

namespace Entry

variable {policy : FloorPolicy} {e : Entry} {i j : Item} {id : Int} {rows : List Item}

theorem onRows_of_not_add (h : e.operation ≠ .add) :
    e.onRows policy id rows = rows.filterMap (e.onAnyRow policy) := by
  rw [onRows, newRow?_of_not_add h]
  simp

/-- An addition leaves every row in its seat. -/
theorem map_seat_of_add (policy : FloorPolicy) (h : e.operation = .add) (rows : List Item) :
    (rows.filterMap (e.onAnyRow policy)).map Item.seat = rows.map Item.seat := by
  rw [Item.map_seat_filterMap (fun _ _ => seat_onAnyRow) rows, List.filter_eq_self.mpr]
  intro i _
  cases e with
  | add e =>
    unfold onAnyRow
    split <;> rfl
  | _ => cases h

/-- Where there is no row of its key, an addition puts one at the end. -/
theorem onRows_of_new (policy : FloorPolicy) (id : Int) (h : e.operation = .add)
    (hmissing : Item.withKey? rows e.key = none) :
    ∃ i, i.key = e.key ∧ e.onRows policy id rows = rows ++ [i] := by
  cases e with
  | add e =>
    refine ⟨⟨id, Text.strip e.name, e.quantity, e.note, Item.nextOrder rows⟩,
      Text.matchKey_strip e.name, ?_⟩
    rw [onRows, filterMap_onAnyRow_of_missing hmissing, hmissing]
    rfl
  | _ => cases h

end Entry

namespace Plan

/-- The adjustments and the removals, which come first. -/
def edits (plan : Plan) : List Entry := plan.adjust.map .adjust ++ plan.remove.map .remove

theorem operation_edits (plan : Plan) : ∀ e ∈ plan.edits, e.operation ≠ .add := by
  intro e he
  rcases List.mem_append.mp he with he | he
  · obtain ⟨_, _, rfl⟩ := List.mem_map.mp he
    exact Operation.noConfusion
  · obtain ⟨_, _, rfl⟩ := List.mem_map.mp he
    exact Operation.noConfusion

theorem operation_adds (plan : Plan) : ∀ e ∈ plan.add.map Entry.add, e.operation = .add := by
  intro e he
  obtain ⟨_, _, rfl⟩ := List.mem_map.mp he
  rfl

end Plan

namespace Standing

variable {policy : FloorPolicy} {entries edits adds : List Entry} {s t : Standing}

theorem isSome_of_describes {standing : Option Standing} {row : Option Item}
    (h : Option.Rel Describes standing row) : standing.isSome = row.isSome := by
  cases h <;> rfl

theorem isNew_actOn {e : Entry} (h : e.actOn policy (some s) = some t) : t.isNew = s.isNew := by
  obtain ⟨row, _, rfl⟩ := Option.map_eq_some_iff.mp h
  rfl

/-- Adjustments and removals put nothing on the list. -/
theorem afterAll_of_edits (hedits : ∀ e ∈ entries, e.operation ≠ .add) {start : Option Standing}
    (hstart : ∀ s, start = some s → s.isNew = false) :
    ∀ t, afterAll policy entries start = some t → t.isNew = false := by
  induction entries generalizing start with
  | nil => exact hstart
  | cons e rest ih =>
    refine ih (fun e' he' => hedits e' (List.mem_cons_of_mem _ he')) ?_
    intro t ht
    cases start with
    | some s => exact (isNew_actOn ht).trans (hstart s rfl)
    | none =>
      have hnew : e.newRow? 0 0 = none :=
        Entry.newRow?_of_not_add (hedits e (List.mem_cons_self ..))
      simp only [Entry.actOn, hnew, Option.map_none] at ht
      cases ht

/-- Additions take nothing off the list. -/
theorem afterAll_of_adds (policy : FloorPolicy) (hadds : ∀ e ∈ entries, e.operation = .add)
    (s : Standing) :
    ∃ t, afterAll policy entries (some s) = some t ∧ t.isNew = s.isNew := by
  induction entries generalizing s with
  | nil => exact ⟨s, rfl, rfl⟩
  | cons e rest ih =>
    have hadd : e.operation = .add := hadds e (List.mem_cons_self ..)
    cases e with
    | add e =>
      obtain ⟨t, ht, hnew⟩ := ih (fun e' he' => hadds e' (List.mem_cons_of_mem _ he'))
        ⟨s.row.increased e.quantity e.note, s.isNew⟩
      have hacts : (Entry.add e).actOn policy (some s) =
          some ⟨s.row.increased e.quantity e.note, s.isNew⟩ := by
        rw [Entry.actOn, Entry.onRow_add]
        rfl
      refine ⟨t, ?_, hnew⟩
      show afterAll policy rest ((Entry.add e).actOn policy (some s)) = some t
      rw [hacts, ht]
    | _ => cases hadd

/-- What is not on the list is put there by the first addition that names it. -/
theorem afterAll_of_adds_of_missing (hadds : ∀ e ∈ entries, e.operation = .add)
    (hne : entries ≠ []) :
    ∃ t, afterAll policy entries none = some t ∧ t.isNew = true := by
  cases entries with
  | nil => exact absurd rfl hne
  | cons e rest =>
    have hadd : e.operation = .add := hadds e (List.mem_cons_self ..)
    cases e with
    | add e =>
      obtain ⟨t, ht, hnew⟩ := afterAll_of_adds policy
        (fun e' he' => hadds e' (List.mem_cons_of_mem _ he'))
        ⟨⟨0, Text.strip e.name, e.quantity, e.note, 0⟩, true⟩
      exact ⟨t, ht, hnew⟩
    | _ => cases hadd

theorem after_append (xs ys : List Entry) (k : Text) (start : Option Item) :
    after policy (xs ++ ys) k start =
      afterAll policy (ys.filter (·.key == k)) (after policy xs k start) := by
  rw [after, List.filter_append, afterAll, List.foldl_append]
  rfl

/-! ## The phases of a plan -/

/-- The adjustments of the item of key `k` act in turn on the row `start` that it had. -/
def afterAdjustments (policy : FloorPolicy) (entries : List AdjustEntry) (k : Text)
    (start : Option Item) : Option Standing :=
  (entries.filter fun e => Text.matchKey e.name = k).foldl
    (fun s e => (Entry.adjust e).actOn policy s) (start.map fun row => ⟨row, false⟩)

/-- A removal of the item takes it off. -/
def afterRemovals (entries : List RemoveEntry) (k : Text) (s : Option Standing) :
    Option Standing :=
  if ∃ e ∈ entries, Text.matchKey e.name = k then none else s

/-- The additions of the item act on it in turn. -/
def afterAdditions (policy : FloorPolicy) (entries : List AddEntry) (k : Text)
    (s : Option Standing) : Option Standing :=
  (entries.filter fun e => Text.matchKey e.name = k).foldl
    (fun s e => (Entry.add e).actOn policy s) s

/-- How the item of key `k` stands after a plan, having had the row `start` before: the
adjustments come first, then the removals, then the additions. -/
def afterPlan (policy : FloorPolicy) (plan : Plan) (k : Text) (start : Option Item) :
    Option Standing :=
  afterAdditions policy plan.add k
    (afterRemovals plan.remove k (afterAdjustments policy plan.adjust k start))

/-- The entries of one kind that have the key, told from those of the plan. -/
theorem afterAll_filter_map {α : Type} (policy : FloorPolicy) (entry : α → Entry) (es : List α)
    (k : Text) (s : Option Standing) :
    afterAll policy ((es.map entry).filter (·.key == k)) s =
      (es.filter fun e => (entry e).key = k).foldl (fun s e => (entry e).actOn policy s) s := by
  have htest : ((·.key == k) ∘ entry) = fun e => decide ((entry e).key = k) := by
    funext e
    exact Bool.eq_iff_iff.mpr (by simp)
  rw [afterAll, List.filter_map, List.foldl_map, htest]

theorem after_adjustments (policy : FloorPolicy) (entries : List AdjustEntry) (k : Text)
    (start : Option Item) :
    after policy (entries.map Entry.adjust) k start = afterAdjustments policy entries k start :=
  afterAll_filter_map ..

/-- Once the item is off the list, other removals find nothing. -/
theorem afterAll_removals (policy : FloorPolicy) (entries : List RemoveEntry) (k : Text)
    (s : Option Standing) :
    afterAll policy ((entries.map Entry.remove).filter (·.key == k)) s =
      afterRemovals entries k s := by
  unfold afterRemovals
  induction entries generalizing s with
  | nil => exact (if_neg (by simp)).symm
  | cons e rest ih =>
    have hkey : (Entry.remove e).key = Text.matchKey e.name := rfl
    by_cases hk : Text.matchKey e.name = k
    · have hgone : (Entry.remove e).actOn policy s = none := by cases s <;> rfl
      rw [List.map_cons, List.filter_cons_of_pos (by simp [hkey, hk]), if_pos ⟨e, by simp, hk⟩]
      show afterAll policy _ ((Entry.remove e).actOn policy s) = none
      rw [hgone, ih, ite_self]
    · rw [List.map_cons, List.filter_cons_of_neg (by simp [hkey, hk]), ih]
      simp [hk]

/-- Adjustments and then removals make two phases. -/
theorem after_edits (policy : FloorPolicy) (adjust : List AdjustEntry) (remove : List RemoveEntry)
    (k : Text) (start : Option Item) :
    after policy (adjust.map Entry.adjust ++ remove.map Entry.remove) k start =
      afterRemovals remove k (afterAdjustments policy adjust k start) := by
  rw [after_append, afterAll_removals, after_adjustments]

/-- The entries of a plan, in their order, make its three phases. -/
theorem after_entries (policy : FloorPolicy) (plan : Plan) (k : Text) (start : Option Item) :
    after policy plan.entries k start = afterPlan policy plan k start := by
  rw [Plan.entries, after_append, after_edits]
  exact afterAll_filter_map ..

theorem mem_map_key_iff {k : Text} :
    k ∈ entries.map Entry.key ↔ entries.filter (·.key == k) ≠ [] := by
  rw [List.mem_map, ne_eq, List.filter_eq_nil_iff]
  constructor
  · rintro ⟨e, he, rfl⟩ h
    exact h e he (by simp)
  · intro h
    obtain ⟨e, he⟩ := not_forall.mp h
    obtain ⟨hmem, hk⟩ := Classical.not_imp.mp he
    exact ⟨e, hmem, by simpa using hk⟩

/-- **The two phases of a plan**: an item is there from before if the edits leave
it, and new if they do not and an addition names it. -/
theorem after_edits_adds (policy : FloorPolicy) (hedits : ∀ e ∈ edits, e.operation ≠ .add)
    (hadds : ∀ e ∈ adds, e.operation = .add) (k : Text) (start : Option Item) :
    (after policy (edits ++ adds) k start).any (!·.isNew) = (after policy edits k start).isSome ∧
      (after policy (edits ++ adds) k start).any (·.isNew) =
        ((after policy edits k start).isNone && decide (k ∈ adds.map Entry.key)) := by
  have hadds' : ∀ e ∈ adds.filter (·.key == k), e.operation = .add :=
    fun e he => hadds e (List.mem_filter.mp he).1
  rw [after_append]
  cases hmid : after policy edits k start with
  | some s =>
    have hold : s.isNew = false := by
      refine afterAll_of_edits (fun e he => hedits e (List.mem_filter.mp he).1) ?_ s hmid
      intro s' hs'
      obtain ⟨row, _, rfl⟩ := Option.map_eq_some_iff.mp hs'
      rfl
    obtain ⟨t, ht, hnew⟩ := afterAll_of_adds policy hadds' s
    rw [ht]
    simp [hnew, hold]
  | none =>
    by_cases hk : k ∈ adds.map Entry.key
    · -- The edits have left nothing, so the first addition makes the item new.
      obtain ⟨t, ht, hnew⟩ :=
        afterAll_of_adds_of_missing hadds' (mem_map_key_iff.mp hk)
      rw [ht]
      simp [hnew, hk]
    · rw [not_not.mp (mt mem_map_key_iff.mpr hk)]
      simp [afterAll, hk]

end Standing

namespace Execution

variable {policy : FloorPolicy} {p : Progress ScratchList} {entries edits adds : List Entry}

/-- **Adjustments and removals leave the rows that stay in their seats**, and put
none on the list. -/
theorem run_edits (h : Tracks p) (hedits : ∀ e ∈ entries, e.operation ≠ .add) :
    ∃ f : Item → Option Item, (∀ i j, f i = some j → j.seat = i.seat) ∧
      (run policy Faults.none p entries).2.store.items = p.store.items.filterMap f := by
  induction entries generalizing p with
  | nil => exact ⟨some, fun i j hij => by rw [Option.some.inj hij], List.filterMap_some.symm⟩
  | cons e rest ih =>
    obtain ⟨f, hf, hitems⟩ := ih (h.step e) fun e' he' => hedits e' (List.mem_cons_of_mem _ he')
    refine ⟨fun i => (e.onAnyRow policy i).bind f, ?_, ?_⟩
    · intro i j hij
      obtain ⟨i', hi', hj⟩ := Option.bind_eq_some_iff.mp hij
      exact (hf i' j hj).trans (Entry.seat_onAnyRow hi')
    · rw [run_cons, hitems, step_items h,
        Entry.onRows_of_not_add (hedits e (List.mem_cons_self ..)), List.filterMap_filterMap]

/-- **Additions leave the rows in their seats, and put one row at the end for
each key that is new**, in the order in which the keys are first asked for. -/
theorem run_adds (policy : FloorPolicy) (h : Tracks p) (hadds : ∀ e ∈ entries, e.operation = .add) :
    ∃ kept created, (run policy Faults.none p entries).2.store.items = kept ++ created ∧
      kept.map Item.seat = p.store.items.map Item.seat ∧
      created.map Item.key = (entries.map Entry.key).eraseDups.filter
        fun k => (Item.withKey? p.store.items k).isNone := by
  induction entries generalizing p with
  | nil => exact ⟨_, [], (List.append_nil _).symm, rfl, rfl⟩
  | cons e rest ih =>
    have hnext : Tracks (step policy Faults.none p e).2 := h.step e
    obtain ⟨kept, created, hitems, hkept, hcreated⟩ :=
      ih hnext fun e' he' => hadds e' (List.mem_cons_of_mem _ he')
    have hadd : e.operation = .add := hadds e (List.mem_cons_self ..)
    rw [run_cons, List.map_cons, Text.filter_eraseDups]
    rw [Text.filter_eraseDups] at hcreated
    rw [step_items h] at hkept hcreated
    cases hi : Item.withKey? p.store.items e.key with
    | some i =>
      rw [Entry.onRows_of_found hi] at hkept hcreated
      have hseats := Entry.map_seat_of_add policy hadd p.store.items
      refine ⟨kept, created, hitems, hkept.trans hseats, ?_⟩
      rw [List.filter_cons_of_neg (by simp [hi]), hcreated]
      simp only [Item.isNone_withKey?, Item.map_key_of_map_seat hseats]
    | none =>
      obtain ⟨i, hik, hrows⟩ := Entry.onRows_of_new policy p.store.nextId hadd hi
      rw [hrows] at hkept hcreated
      -- The row that is made here is the last one that stays in its seat from here on.
      rw [List.map_append, List.map_singleton] at hkept
      obtain ⟨old, made, rfl, hold, hmade⟩ := List.map_eq_append_iff.mp hkept
      obtain ⟨i', rfl, hseat⟩ := List.map_eq_singleton_iff.mp hmade
      refine ⟨old, [i'] ++ created, by rw [hitems, List.append_assoc], hold, ?_⟩
      rw [Item.filter_missing_append, hik] at hcreated
      rw [List.filter_cons_of_pos (by simp [hi]), List.eraseDups_cons, ← hcreated,
        List.map_append, List.map_singleton, Item.key_of_seat hseat, hik]
      rfl

/-- A list shows a row of a key when the entries say that its item is there. -/
theorem isSome_after (h : Tracks p) (entries : List Entry) (k : Text) :
    (Standing.after policy entries k (Item.withKey? p.store.items k)).isSome =
      (Item.withKey? (run policy Faults.none p entries).2.store.items k).isSome :=
  Standing.isSome_of_describes (run_standing h entries (Standing.describes_start _))

/-- Adjustments and removals keep exactly the rows whose item they leave there. -/
theorem run_edits_items (h : Tracks p) (hedits : ∀ e ∈ entries, e.operation ≠ .add) :
    (run policy Faults.none p entries).2.store.items.map Item.seat =
      (p.store.items.filter fun i => (Standing.after policy entries i.key
        (Item.withKey? p.store.items i.key)).isSome).map Item.seat := by
  obtain ⟨f, hf, hitems⟩ := run_edits h hedits
  rw [hitems, Item.map_seat_filterMap hf]
  refine congrArg (List.map Item.seat) (List.filter_congr fun i hi => ?_)
  rw [isSome_after h, hitems,
    Item.withKey?_filterMap (fun i j hij => Item.key_of_seat (hf i j hij)) h.2,
    h.2.withKey?_key hi]
  rfl

/-- The rows after edits and then additions are those that were there and stay, in
their seats, and after them those that are new. -/
theorem run_edits_adds (policy : FloorPolicy) (h : Tracks p)
    (hedits : ∀ e ∈ edits, e.operation ≠ .add) (hadds : ∀ e ∈ adds, e.operation = .add) :
    ∃ kept created, (run policy Faults.none p (edits ++ adds)).2.store.items = kept ++ created ∧
      kept.map Item.seat = (p.store.items.filter fun i => (Standing.after policy (edits ++ adds)
        i.key (Item.withKey? p.store.items i.key)).any (!·.isNew)).map Item.seat ∧
      created.map Item.key = (adds.map Entry.key).eraseDups.filter fun k =>
        (Standing.after policy (edits ++ adds) k
          (Item.withKey? p.store.items k)).any (·.isNew) := by
  have hmid : Tracks (run policy Faults.none p edits).2 := h.run edits
  obtain ⟨kept, created, hitems, hkept, hcreated⟩ := run_adds policy hmid hadds
  have hphases := fun k => Standing.after_edits_adds policy hedits hadds k
    (Item.withKey? p.store.items k)
  refine ⟨kept, created, ?_, ?_, ?_⟩
  · rw [run_append]
    exact hitems
  · rw [hkept, run_edits_items h hedits]
    refine congrArg (List.map Item.seat) (List.filter_congr fun i _ => ?_)
    exact (hphases i.key).1.symm
  · rw [hcreated]
    refine List.filter_congr fun k hk => ?_
    rw [(hphases k).2, ← Option.not_isSome, ← Option.not_isSome, isSome_after h]
    simp [List.mem_eraseDups.mp hk]

/-- What is reported of an entry is what the entries before say of its item. -/
theorem outcome_at (policy : FloorPolicy) {before after : List Entry} {e : Entry} (h : Tracks p)
    (hentries : entries = before ++ e :: after) :
    ((run policy Faults.none p entries).1.map Event.outcome)[before.length]? = some ⟨e,
      if e.operation = .add ∨ (Standing.after policy before e.key
        (Item.withKey? p.store.items e.key)).isSome = true then .applied else .noMatch, none⟩ := by
  have hlength : before.length = ((run policy Faults.none p before).1.map Event.outcome).length :=
    ((List.length_map _).trans (length_run before)).symm
  rw [hentries, run_append, List.map_append, hlength, List.getElem?_append_right (Nat.le_refl _),
    Nat.sub_self, run_cons, List.map_cons, List.getElem?_cons_zero, outcome_step (h.run before),
    isSome_after h]

/-- An adjustment is matched after the adjustments before it. -/
theorem outcome_of_adjust (policy : FloorPolicy) (h : Tracks p) {plan : Plan} {e : AdjustEntry}
    {before after : List AdjustEntry} (hadjust : plan.adjust = before ++ e :: after) :
    ((run policy Faults.none p plan.entries).1.map Event.outcome)[before.length]? =
      some ⟨.adjust e, if (Standing.afterAdjustments policy before (Text.matchKey e.name)
        (Item.withKey? p.store.items (Text.matchKey e.name))).isSome = true
          then .applied else .noMatch, none⟩ := by
  have hentries : plan.entries = before.map Entry.adjust ++ .adjust e ::
      (after.map Entry.adjust ++ plan.remove.map Entry.remove ++ plan.add.map Entry.add) := by
    simp [Plan.entries, hadjust]
  have hat := outcome_at policy h hentries
  rw [List.length_map, Standing.after_adjustments] at hat
  simp only [Entry.operation, reduceCtorEq, false_or] at hat
  exact hat

/-- A removal is matched after all adjustments and the removals before it. -/
theorem outcome_of_remove (policy : FloorPolicy) (h : Tracks p) {plan : Plan} {e : RemoveEntry}
    {before after : List RemoveEntry} (hremove : plan.remove = before ++ e :: after) :
    ((run policy Faults.none p plan.entries).1.map Event.outcome)[plan.adjust.length +
        before.length]? =
      some ⟨.remove e, if (Standing.afterRemovals before (Text.matchKey e.name)
        (Standing.afterAdjustments policy plan.adjust (Text.matchKey e.name)
          (Item.withKey? p.store.items (Text.matchKey e.name)))).isSome = true
            then .applied else .noMatch, none⟩ := by
  have hentries : plan.entries = (plan.adjust.map Entry.adjust ++ before.map Entry.remove) ++
      .remove e :: (after.map Entry.remove ++ plan.add.map Entry.add) := by
    simp [Plan.entries, hremove]
  have hat := outcome_at policy h hentries
  rw [List.length_append, List.length_map, List.length_map, Standing.after_edits] at hat
  simp only [Entry.operation, reduceCtorEq, false_or] at hat
  exact hat

/-- An addition always goes through. -/
theorem outcome_of_add (policy : FloorPolicy) (h : Tracks p) {plan : Plan} {e : AddEntry}
    {before after : List AddEntry} (hadd : plan.add = before ++ e :: after) :
    ((run policy Faults.none p plan.entries).1.map Event.outcome)[plan.adjust.length +
        plan.remove.length + before.length]? = some ⟨.add e, .applied, none⟩ := by
  have hentries : plan.entries = (plan.adjust.map Entry.adjust ++ plan.remove.map Entry.remove ++
      before.map Entry.add) ++ .add e :: after.map Entry.add := by
    simp [Plan.entries, hadd]
  have hat := outcome_at policy h hentries
  rw [List.length_append, List.length_append, List.length_map, List.length_map,
    List.length_map] at hat
  simp only [Entry.operation, true_or, if_true] at hat
  exact hat

/-- The execution of a plan on a list did to every item what the entries that name
it say, and nothing else. -/
structure WentItemByItem (policy : FloorPolicy) (plan : Plan) (l : ScratchList)
    (x : Execution ScratchList) : Prop where
  distinct : Item.DistinctKeys x.store.items
  /-- The row of a key is what the phases of the plan make of the row before. -/
  rows : ∀ k, Option.Rel Standing.Describes
    (Standing.afterPlan policy plan k (Item.withKey? l.items k)) (Item.withKey? x.store.items k)
  /-- Rows that stay keep their seats; rows that are new come after them, in the
  order in which the plan first adds them. -/
  order : ∃ kept created, x.store.items = kept ++ created ∧
    kept.map Item.seat = (l.items.filter fun i =>
      (Standing.afterPlan policy plan i.key (some i)).any (!·.isNew)).map Item.seat ∧
    created.map Item.key = (plan.add.map fun e => Text.matchKey e.name).eraseDups.filter fun k =>
      (Standing.afterPlan policy plan k (Item.withKey? l.items k)).any (·.isNew)
  /-- Every entry is reported: the adjustments, then the removals, then the additions. -/
  reported : x.report.length = plan.adjust.length + plan.remove.length + plan.add.length
  /-- An adjustment is applied if its item is there after the adjustments before it. -/
  adjusts : ∀ before e after, plan.adjust = before ++ e :: after →
    x.report[before.length]? = some ⟨.adjust e,
      if (Standing.afterAdjustments policy before (Text.matchKey e.name)
          (Item.withKey? l.items (Text.matchKey e.name))).isSome = true
        then .applied else .noMatch, none⟩
  /-- A removal is applied if its item is there after the adjustments and the removals
  before it. -/
  removes : ∀ before e after, plan.remove = before ++ e :: after →
    x.report[plan.adjust.length + before.length]? = some ⟨.remove e,
      if (Standing.afterRemovals before (Text.matchKey e.name)
          (Standing.afterAdjustments policy plan.adjust (Text.matchKey e.name)
            (Item.withKey? l.items (Text.matchKey e.name)))).isSome = true
        then .applied else .noMatch, none⟩
  /-- An addition is applied. -/
  adds : ∀ before e after, plan.add = before ++ e :: after →
    x.report[plan.adjust.length + plan.remove.length + before.length]? =
      some ⟨.add e, .applied, none⟩

/-- **The meaning of a plan, item by item.**  On a list whose rows have distinct
keys, a plan that meets no fault does to each item what the entries that name it
say, phase by phase. -/
theorem ofPlan_wentItemByItem (policy : FloorPolicy) (plan : Plan) (l : ScratchList)
    (h : Item.DistinctKeys l.rows) :
    WentItemByItem policy plan l (ofPlan policy Faults.none plan l.items l) := by
  have htracks : Tracks ⟨l, l.items, 0⟩ := tracks_start h
  refine ⟨(htracks.run plan.entries).2, fun k => ?_, ?_, ?_, ?_, ?_, ?_⟩
  · rw [← Standing.after_entries]
    exact run_standing htracks plan.entries (Standing.describes_start _)
  · obtain ⟨kept, created, hitems, hkept, hcreated⟩ :=
      run_edits_adds policy htracks plan.operation_edits plan.operation_adds
    refine ⟨kept, created, hitems, hkept.trans ?_, ?_⟩
    · refine congrArg (List.map Item.seat) (List.filter_congr fun i hi => ?_)
      rw [htracks.2.withKey?_key hi, ← Standing.after_entries]
      rfl
    · rw [List.map_map] at hcreated
      simp only [← Standing.after_entries]
      exact hcreated
  · rw [report, List.length_map, ofPlan_eq]
    dsimp only
    rw [length_run, Plan.entries, List.length_append, List.length_append, List.length_map,
      List.length_map, List.length_map]
  · exact fun _ _ _ => outcome_of_adjust policy htracks
  · exact fun _ _ _ => outcome_of_remove policy htracks
  · exact fun _ _ _ => outcome_of_add policy htracks

/-- Milk is used up and bread struck off here, both come back in the order in
which they are added, and tea, which stays, gets a note that an empty one leaves. -/
theorem ofPlan_wentItemByItem_milkBreadTea :
    let l := ScratchList.ofItems
      [⟨5, "Milk", 2, none, 3⟩, ⟨9, "Tea", 1, none, 0⟩, ⟨7, "bread", 4, some "rye", 3⟩]
    let plan : Plan := ⟨[⟨" Bread ", 1, none⟩, ⟨"TEA", 1, some "green"⟩, ⟨"milk", 2, none⟩,
      ⟨"bread", 1, some "white"⟩, ⟨"tea", 3, some ""⟩], [⟨"bread"⟩, ⟨"rice"⟩],
      [⟨"milk", -1⟩, ⟨"milk", -4⟩, ⟨"MILK", 9⟩], []⟩
    let x := ofPlan .deleteAtZero Faults.none plan l.items l
    Item.DistinctKeys l.rows ∧ WentItemByItem .deleteAtZero plan l x ∧
      x.store.items = [⟨9, "Tea", 5, some "green", 0⟩, ⟨10, "Bread", 2, some "white", 1⟩,
        ⟨11, "milk", 2, none, 2⟩] ∧
      x.report.map Outcome.status = [.applied, .applied, .noMatch, .applied, .noMatch, .applied,
        .applied, .applied, .applied, .applied] := by
  intro l plan x
  have h : Item.DistinctKeys l.rows := by decide +kernel
  exact ⟨h, ofPlan_wentItemByItem .deleteAtZero plan l h, by decide +kernel, by decide +kernel⟩

end Execution
end SpokenList
