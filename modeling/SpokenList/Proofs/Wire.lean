import SpokenList.Plan.Wire

/-! # Plans come back from the wire

A plan whose entries are within the bounds is read back from the wire as it was
(`Plan.ofJson_toJson`), over either channel.  Each check accepts what the writer
of its part has written; the lemmas follow the checks from single values over
the fields of an object to lists.
-/
namespace SpokenList

/-! ## Fields -/

/-- Of repeated names the last one counts, so the others are looked at first. -/
theorem Json.field?_cons (name : Text) (f : Text × Json) (fields : List (Text × Json)) :
    field? name (f :: fields) =
      (field? name fields).or (if f.1 = name then some f.2 else none) := by
  have hfold (found : Option Json) :
      fields.foldl (fun found f => if f.1 = name then some f.2 else found) found =
        (field? name fields).or found := by
    unfold field?
    induction fields generalizing found with
    | nil => rfl
    | cons g rest ih =>
      rw [List.foldl_cons, List.foldl_cons, ih, ih (if g.1 = name then _ else _)]
      split
      · cases List.foldl _ none rest <;> rfl
      · cases List.foldl _ none rest <;> rfl
  exact hfold _

theorem Json.field?_of_not_mem {name : Text} {fields : List (Text × Json)}
    (h : name ∉ fields.map Prod.fst) : field? name fields = none := by
  induction fields with
  | nil => rfl
  | cons f rest ih =>
    obtain ⟨hf, hrest⟩ := List.ne_and_not_mem_of_not_mem_cons h
    rw [field?_cons, ih hrest, if_neg hf.symm]
    rfl

/-- An object whose names are distinct has each of its fields. -/
theorem Json.field?_of_mem {name : Text} {v : Json} {fields : List (Text × Json)}
    (hdistinct : (fields.map Prod.fst).Nodup) (h : (name, v) ∈ fields) :
    field? name fields = some v := by
  induction fields with
  | nil => cases h
  | cons f rest ih =>
    obtain ⟨hf, hrest⟩ := List.nodup_cons.mp hdistinct
    rw [field?_cons]
    rcases List.mem_cons.mp h with rfl | h
    · rw [field?_of_not_mem hf, if_pos rfl]
      rfl
    · rw [ih hrest h]
      rfl

theorem Json.map_fst_objectOf (fields : List (String × Json)) :
    (fields.map fun f => ((f.1 : Text), f.2)).map Prod.fst =
      (fields.map Prod.fst).map String.toList := by
  simp

theorem Json.field?_objectOf {name : String} {v : Json} {fields : List (String × Json)}
    (hdistinct : (fields.map Prod.fst).Nodup) (h : (name, v) ∈ fields) :
    field? name (fields.map fun f => ((f.1 : Text), f.2)) = some v := by
  refine field?_of_mem ?_ (List.mem_map_of_mem (f := fun f => ((f.1 : Text), f.2)) h)
  rw [map_fst_objectOf]
  exact List.Pairwise.map String.toList (fun _ _ hne h => hne (String.toList_inj.mp h)) hdistinct

theorem Json.field?_objectOf_of_not_mem {name : String} {fields : List (String × Json)}
    (h : name ∉ fields.map Prod.fst) :
    field? name (fields.map fun f => ((f.1 : Text), f.2)) = none := by
  refine field?_of_not_mem fun hmem => h ?_
  rw [map_fst_objectOf] at hmem
  obtain ⟨s, hs, heq⟩ := List.mem_map.mp hmem
  rwa [← String.toList_inj.mp heq]

namespace Checked

variable {α β : Type} {a : α} {b : β} {check : Json → Checked α} {v : Json} {name : Text}
  {fields : List (Text × Json)}

theorem both_of_ok {x : Checked α} {y : Checked β} (hx : x = .ok a) (hy : y = .ok b) :
    both x y = .ok (a, b) := by
  rw [hx, hy, both]

theorem required_of_ok (hfield : Json.field? name fields = some v) (hv : check v = .ok a) :
    required name check fields = .ok a := by
  simp only [required, hfield, hv, under]

theorem optional_of_ok {default : α} (hfield : Json.field? name fields = some v)
    (hv : check v = .ok a) : optional name default check fields = .ok a := by
  simp only [optional, hfield, hv, under]

theorem optional_of_missing {default : α} (hfield : Json.field? name fields = none) :
    optional name default check fields = .ok default := by
  simp only [optional, hfield, under]

/-! ## Single values and lists -/

theorem name_text {t : Text} (ht : t ≠ []) : Checked.name (.text t) = .ok t := by
  have hne : t.isEmpty = false := by simpa using ht
  simp only [Checked.name, text, Except.bind, hne]
  rfl

theorem integerWithin_integer {lo hi n : Int} (hlo : lo ≤ n) (hhi : n ≤ hi) :
    integerWithin lo hi (.integer n) = .ok n := by
  have hinteger : integer (.integer n) = .ok n := rfl
  rw [integerWithin, hinteger]
  show (if n < lo then _ else if hi < n then _ else _) = _
  rw [if_neg (Int.not_lt.mpr hlo), if_neg (Int.not_lt.mpr hhi)]

/-- A text that may be absent is left out then. -/
theorem optional_text {note : Option Text} (hfield : Json.field? name fields = note.map .text) :
    optional name none (orNull text) fields = .ok note := by
  cases note with
  | none => exact optional_of_missing hfield
  | some t => exact optional_of_ok hfield rfl

theorem eachFrom_map {write : β → Json} {read : β → α} {xs : List β}
    (h : ∀ x ∈ xs, check (write x) = .ok (read x)) (i : Nat) :
    eachFrom check i (xs.map write) = .ok (xs.map read) := by
  induction xs generalizing i with
  | nil => rfl
  | cons x rest ih =>
    have hx : under (.index i) (check (write x)) = .ok (read x) := by rw [h x (by simp), under]
    rw [List.map_cons, eachFrom,
      both_of_ok hx (ih (fun y hy => h y (List.mem_cons_of_mem x hy)) (i + 1))]
    rfl

theorem list_map (cause : Cause) {write : β → Json} {read : β → α} {xs : List β}
    (h : ∀ x ∈ xs, check (write x) = .ok (read x)) :
    list cause check (.list (xs.map write)) = .ok (xs.map read) := eachFrom_map h 0

theorem list_map_self (cause : Cause) {write : α → Json} {xs : List α}
    (h : ∀ x ∈ xs, check (write x) = .ok x) :
    list cause check (.list (xs.map write)) = .ok xs :=
  (list_map cause h).trans (congrArg Except.ok (List.map_id' xs))

end Checked

/-! ## Entries -/

/-- What is kept of a list, if it is decided entry by entry. -/
theorem filterMap_ite {α β : Type} (p : α → Prop) [DecidablePred p] (f : α → β) (xs : List α) :
    xs.filterMap (fun x => if p x then some (f x) else none) = (xs.filter (p ·)).map f := by
  induction xs with
  | nil => rfl
  | cons x rest ih => by_cases hx : p x <;> simp [hx, ih]

variable {limits : Limits}

/-- An addition on the wire has its name, its quantity, and its note if there is one. -/
theorem AddEntry.exists_fields (e : AddEntry) :
    ∃ fields, e.toJson = .object fields ∧ Json.field? "name" fields = some (.text e.name) ∧
      Json.field? "quantity" fields = some (.integer e.quantity) ∧
      Json.field? "note" fields = e.note.map .text := by
  obtain ⟨name, quantity, note⟩ := e
  refine ⟨_, rfl, ?_⟩
  cases note with
  | none =>
    refine ⟨Json.field?_objectOf ?_ (.head _), Json.field?_objectOf ?_ (.tail _ (.head _)),
      Json.field?_objectOf_of_not_mem ?_⟩
    all_goals simp
  | some note =>
    refine ⟨Json.field?_objectOf ?_ (.head _), Json.field?_objectOf ?_ (.tail _ (.head _)),
      Json.field?_objectOf ?_ (.tail _ (.tail _ (.head _)))⟩
    all_goals simp

theorem AddEntry.ofJson_toJson (channel : Checked.Channel) {e : AddEntry}
    (h : e.Admissible limits) : ofJson limits channel e.toJson = .ok e := by
  obtain ⟨hname, hlo, hhi⟩ := h
  obtain ⟨fields, hfields, hnamed, hcounted, hnoted⟩ := e.exists_fields
  rw [hfields]
  exact congrArg (Except.map _) (Checked.both_of_ok
    (Checked.required_of_ok hnamed (Checked.name_text hname))
    (Checked.both_of_ok
      (Checked.optional_of_ok hcounted (Checked.integerWithin_integer hlo hhi))
      (Checked.optional_text hnoted)))

theorem RemoveEntry.ofJson_toJson (channel : Checked.Channel) {e : RemoveEntry}
    (h : e.Admissible) : ofJson channel e.toJson = .ok e :=
  congrArg (Except.map _)
    (Checked.required_of_ok (Json.field?_objectOf (by simp) (.head _)) (Checked.name_text h))

theorem AdjustEntry.ofJson_toJson (channel : Checked.Channel) {e : AdjustEntry}
    (h : e.Admissible limits) : ofJson limits channel e.toJson = .ok e := by
  obtain ⟨hname, hlo, hhi, hzero⟩ := h
  have hdelta : deltaOfJson limits (.integer e.delta) = .ok e.delta := by
    rw [deltaOfJson, Checked.integerWithin_integer hlo hhi]
    exact if_neg hzero
  exact congrArg (Except.map _) (Checked.both_of_ok
    (Checked.required_of_ok (Json.field?_objectOf (by simp) (.head _)) (Checked.name_text hname))
    (Checked.required_of_ok (Json.field?_objectOf (by simp) (.tail _ (.head _))) hdelta))

/-- **A plan within the bounds comes back from the wire as it was.** -/
theorem Plan.ofJson_toJson (channel : Checked.Channel) {p : Plan} (h : p.Admissible limits) :
    ofJson limits channel p.toJson = .ok p := by
  obtain ⟨hadd, hremove, hadjust⟩ := h
  have hadds := Checked.list_map_self .notSequence
    fun e he => AddEntry.ofJson_toJson channel (hadd e he)
  have hremoves := Checked.list_map_self .notSequence
    fun e he => RemoveEntry.ofJson_toJson channel (hremove e he)
  have hadjusts := Checked.list_map_self .notSequence
    fun e he => AdjustEntry.ofJson_toJson channel (hadjust e he)
  have hraw : Checked.text (.text p.raw) = .ok p.raw := rfl
  exact congrArg (Except.map _) (Checked.both_of_ok
    (Checked.optional_of_ok (Json.field?_objectOf (by simp) (.head _)) hadds)
    (Checked.both_of_ok
      (Checked.optional_of_ok (Json.field?_objectOf (by simp) (.tail _ (.head _))) hremoves)
      (Checked.both_of_ok
        (Checked.optional_of_ok (Json.field?_objectOf (by simp) (.tail _ (.tail _ (.head _))))
          hadjusts)
        (Checked.optional_of_ok
          (Json.field?_objectOf (by simp) (.tail _ (.tail _ (.tail _ (.head _))))) hraw))))

end SpokenList
