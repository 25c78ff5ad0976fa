import SpokenList.Proofs.Wire

/-! # One form on the wire for every plan

A document may spell a plan in many ways: a quantity as a numeral or a truth
value, a note as null or not at all, whole lists left out, fields that nobody
reads.  Whatever the spelling, the plan that is read is within the bounds, so
writing it gives a document that is read back as the same plan
(`Plan.wire_lossless`): the written form stands for all its spellings.

That a reading is within the bounds is followed through the checks with
`Checked.Ensures`, in the order in which the checks are put together: single
values, fields, pairs of checks, lists, entries.
-/
namespace SpokenList

namespace Checked

/-- Whatever the check lets through has the property. -/
def Ensures {ι α : Type} (check : ι → Checked α) (P : α → Prop) : Prop :=
  ∀ v a, check v = .ok a → P a

variable {ι α β : Type} {P : α → Prop} {Q : β → Prop}

theorem exists_ok_of_bind {x : Checked α} {f : α → Checked β} {b : β} (h : x.bind f = .ok b) :
    ∃ a, x = .ok a ∧ f a = .ok b := by
  cases x with
  | error ps => cases h
  | ok a => exact ⟨a, rfl, h⟩

theorem exists_ok_of_map {x : Checked α} {f : α → β} {b : β} (h : x.map f = .ok b) :
    ∃ a, x = .ok a ∧ f a = b := by
  cases x with
  | error ps => cases h
  | ok a =>
    cases h
    exact ⟨a, rfl, rfl⟩

/-! ## Single values -/

theorem ensures_name : Ensures name (· ≠ []) := by
  intro v t h
  obtain ⟨s, -, h⟩ := exists_ok_of_bind h
  split at h
  · cases h
  · next hs =>
    cases h
    simpa using hs

theorem ensures_integerWithin (lo hi : Int) :
    Ensures (integerWithin lo hi) fun n => lo ≤ n ∧ n ≤ hi := by
  intro v n h
  obtain ⟨m, -, h⟩ := exists_ok_of_bind h
  split at h
  · cases h
  · split at h
    · cases h
    · cases h
      omega

/-! ## Checks put together -/

theorem ensures_true (check : ι → Checked α) : Ensures check fun _ => True :=
  fun _ _ _ => trivial

theorem under_eq_ok_iff {step : Step} {x : Checked α} {a : α} :
    under step x = .ok a ↔ x = .ok a := by
  cases x <;> simp [under]

theorem both_eq_ok_iff {x : Checked α} {y : Checked β} {a : α} {b : β} :
    both x y = .ok (a, b) ↔ x = .ok a ∧ y = .ok b := by
  cases x <;> cases y <;> simp [Checked.both]

/-- Where the field is there, the default is not looked at. -/
theorem optional_eq_ok_iff {check : Json → Checked α} {name : Text} {default a : α} {v : Json}
    {fields : List (Text × Json)} (hfield : Json.field? name fields = some v) :
    optional name default check fields = .ok a ↔ check v = .ok a := by
  rw [optional, hfield, under_eq_ok_iff]

theorem Ensures.map {check : ι → Checked α} {f : α → β} (h : Ensures check P)
    (hf : ∀ a, P a → Q (f a)) : Ensures (fun v => (check v).map f) Q := by
  intro v b hb
  obtain ⟨a, hv, rfl⟩ := exists_ok_of_map hb
  exact hf a (h v a hv)

theorem Ensures.both {first : ι → Checked α} {second : ι → Checked β} (hfirst : Ensures first P)
    (hsecond : Ensures second Q) :
    Ensures (fun v => Checked.both (first v) (second v)) fun r => P r.1 ∧ Q r.2 := by
  rintro v ⟨a, b⟩ h
  obtain ⟨ha, hb⟩ := both_eq_ok_iff.mp h
  exact ⟨hfirst v a ha, hsecond v b hb⟩

theorem Ensures.required {check : Json → Checked α} (h : Ensures check P) (name : Text) :
    Ensures (required name check) P := by
  intro fields a ha
  unfold Checked.required at ha
  rw [under_eq_ok_iff] at ha
  split at ha
  · exact h _ a ha
  · cases ha

theorem Ensures.optional {check : Json → Checked α} (h : Ensures check P) (name : Text)
    (default : α) (hdefault : P default) : Ensures (optional name default check) P := by
  intro fields a ha
  unfold Checked.optional at ha
  rw [under_eq_ok_iff] at ha
  split at ha
  · exact h _ a ha
  · cases ha
    exact hdefault

theorem Ensures.object {check : List (Text × Json) → Checked α} (h : Ensures check P)
    (channel : Channel) (model : Text) : Ensures (object channel model check) P := by
  intro v a ha
  cases v with
  | object fields => exact h fields a ha
  | _ => cases ha

theorem Ensures.eachFrom {check : Json → Checked α} (h : Ensures check P) (i : Nat) :
    Ensures (eachFrom check i) fun xs => ∀ x ∈ xs, P x := by
  intro vs
  induction vs generalizing i with
  | nil =>
    intro xs hxs
    cases hxs
    intro x hx
    cases hx
  | cons v rest ih =>
    -- The item and the rest are checked side by side; each keeps its own property.
    have hhead : Ensures (fun _ : Unit => under (.index i) (check v)) P :=
      fun _ a ha => h v a (under_eq_ok_iff.mp ha)
    have htail : Ensures (fun _ : Unit => Checked.eachFrom check (i + 1) rest)
        fun xs => ∀ x ∈ xs, P x := fun _ => ih (i + 1)
    have hcons := (hhead.both htail).map (f := fun r => r.1 :: r.2) (Q := fun xs => ∀ x ∈ xs, P x)
      fun r hr => List.forall_mem_cons.mpr hr
    exact hcons ()

theorem Ensures.list {check : Json → Checked α} (h : Ensures check P) (cause : Cause) :
    Ensures (list cause check) fun xs => ∀ x ∈ xs, P x := by
  intro v xs hxs
  cases v with
  | list items => exact h.eachFrom 0 items xs hxs
  | _ => cases hxs

end Checked

/-! ## Entries and plans -/

variable {limits : Limits}

/-- The default quantity is not checked; it is within the bounds if anything is. -/
theorem AddEntry.ensures_ofJson (hlimits : 1 ≤ limits.quantity) (channel : Checked.Channel) :
    Checked.Ensures (ofJson limits channel) (Admissible limits) := by
  have hname := Checked.ensures_name.required "name"
  have hquantity := (Checked.ensures_integerWithin 1 limits.quantity).optional "quantity" 1
    ⟨Int.le_refl 1, hlimits⟩
  have hnote := (Checked.ensures_true (Checked.orNull Checked.text)).optional "note" none
    trivial
  refine ((hname.both (hquantity.both hnote)).map ?_).object channel "AddEntry"
  rintro ⟨name, quantity, note⟩ ⟨hname, hquantity, -⟩
  exact ⟨hname, hquantity⟩

theorem RemoveEntry.ensures_ofJson (channel : Checked.Channel) :
    Checked.Ensures (ofJson channel) Admissible := by
  have hname := Checked.ensures_name.required "name"
  exact (hname.map (f := RemoveEntry.mk) fun _ hname => hname).object channel "RemoveEntry"

theorem AdjustEntry.ensures_deltaOfJson (limits : Limits) :
    Checked.Ensures (deltaOfJson limits) fun n =>
      -limits.quantity ≤ n ∧ n ≤ limits.quantity ∧ n ≠ 0 := by
  intro v n h
  obtain ⟨m, hm, h⟩ := Checked.exists_ok_of_bind h
  obtain ⟨hlo, hhi⟩ := Checked.ensures_integerWithin _ _ v m hm
  split at h
  · cases h
  · next hzero =>
    cases h
    exact ⟨hlo, hhi, hzero⟩

theorem AdjustEntry.ensures_ofJson (limits : Limits) (channel : Checked.Channel) :
    Checked.Ensures (ofJson limits channel) (Admissible limits) := by
  have hname := Checked.ensures_name.required "name"
  have hdelta := (AdjustEntry.ensures_deltaOfJson limits).required "delta"
  refine ((hname.both hdelta).map ?_).object channel "AdjustEntry"
  rintro ⟨name, delta⟩ h
  exact h

/-- Every plan that is read is within the bounds. -/
theorem Plan.ensures_ofJson (hlimits : 1 ≤ limits.quantity) (channel : Checked.Channel) :
    Checked.Ensures (ofJson limits channel) (Admissible limits) := by
  have hadd := ((AddEntry.ensures_ofJson hlimits channel).list .notSequence).optional "add" []
    fun e he => nomatch he
  have hremove := ((RemoveEntry.ensures_ofJson channel).list .notSequence).optional "remove" []
    fun e he => nomatch he
  have hadjust := ((AdjustEntry.ensures_ofJson limits channel).list .notSequence).optional "adjust" []
    fun e he => nomatch he
  have hraw := (Checked.ensures_true Checked.text).optional "raw" [] trivial
  refine ((hadd.both (hremove.both (hadjust.both hraw))).map ?_).object channel "Plan"
  rintro ⟨add, remove, adjust, raw⟩ ⟨hadd, hremove, hadjust, -⟩
  exact ⟨hadd, hremove, hadjust⟩

/-- **The wire loses nothing.**  A plan within the bounds is read back from its
written form as it was; and whatever document a plan was read from, on whichever
channel, writing the plan gives a document that is read as the same plan.  The
limit is at least one, as it has to be for any addition to be within the bounds,
the one whose quantity was left out among them. -/
theorem Plan.wire_lossless (limits : Limits) (hlimits : 1 ≤ limits.quantity) :
    (∀ channel (p : Plan), p.Admissible limits → ofJson limits channel p.toJson = .ok p) ∧
      ∀ channel channel' j p, ofJson limits channel j = .ok p →
        ofJson limits channel' p.toJson = .ok p := by
  refine ⟨fun channel p h => ofJson_toJson channel h, fun channel channel' j p hread => ?_⟩
  have hadmissible := Plan.ensures_ofJson hlimits channel j p hread
  exact ofJson_toJson channel' hadmissible

/-- A numeral, a truth value and a decimal stand for quantities, one is left out,
one note is null and one is empty, and there is more than anybody reads. -/
def Plan.looseSpelling : Json :=
  .objectOf
    [("add", .list
      [.objectOf [("quantity", .text " +2"), ("name", .text "Crème"), ("note", .null)],
       .objectOf [("name", .text "eggs"), ("quantity", .bool true), ("note", .text [])],
       .objectOf [("name", .text " "), ("quantity", .decimal ⟨false, 30, -1⟩)],
       .objectOf [("name", .text "tea"), ("aisle", .integer 4)]]),
     ("later", .bool false)]

theorem Plan.wire_lossless_looseSpelling :
    ∃ p : Plan, p.add = [⟨"Crème", 2, none⟩, ⟨"eggs", 1, some []⟩, ⟨" ", 3, none⟩, ⟨"tea", 1, none⟩] ∧
      ofJson .standard .request looseSpelling = .ok p ∧
      ofJson .standard .document p.toJson = .ok p := by
  have hread : (ofJson .standard .request looseSpelling).toOption = some
      ⟨[⟨"Crème", 2, none⟩, ⟨"eggs", 1, some []⟩, ⟨" ", 3, none⟩, ⟨"tea", 1, none⟩], [], [], []⟩ := by
    decide +kernel
  cases h : ofJson .standard .request looseSpelling with
  | error ps =>
    rw [h] at hread
    cases hread
  | ok p =>
    rw [h] at hread
    cases hread
    exact ⟨_, rfl, rfl, (wire_lossless .standard (by decide)).2 .request .document _ _ h⟩

end SpokenList
