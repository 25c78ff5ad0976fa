import SpokenList.Item
import SpokenList.Proofs.Groups
import SpokenList.Proofs.ItemNames
import SpokenList.Proofs.Openings
import SpokenList.Proofs.Wire
import SpokenList.Utterance.Compile

/-! # What compiling a command gives

Whatever is said, the plan for it has one kind of entry only, and every entry is
within the bounds and has a name in normal form (`Utterance.compile_wellFormed`).

A command is read in lower case, and each step from the command to an entry says
nothing that was not said before, besides spaces.  So the characters of names and
notes are in lower case, and since segments have no comma, neither do they
(`Utterance.Spoken`).
-/
namespace SpokenList.Utterance

variable {limits : Limits} {c : Char} {rest s t : Text}

/-! ## What an intent is about -/

theorem suffix_of_after? {w : Text} (h : Text.after? w t = some rest) : rest <:+ t :=
  ⟨w, Text.after?_eq_some_iff.mp h⟩

theorem suffix_of_afterWords? {phrase : List Text} (h : afterWords? phrase t = some rest) :
    rest <:+ t := by
  fun_induction afterWords? phrase t with
  | case1 t =>
    obtain rfl := Option.some.inj h
    exact List.suffix_rfl
  | case2 t w => exact suffix_of_after? h
  | case3 t w ws hws ih =>
    obtain ⟨after, hafter, h⟩ := Option.bind_eq_some_iff.mp h
    split at h
    · exact (ih after h).trans ((List.dropWhile_suffix _).trans (suffix_of_after? hafter))
    · cases h

theorem suffix_of_afterPhrase? {phrases : List (List Text)}
    (h : afterPhrase? phrases t = some rest) : rest <:+ t := by
  obtain ⟨phrase, _, hphrase⟩ := List.exists_of_findSome?_eq_some h
  obtain ⟨after, hafter, h⟩ := Option.bind_eq_some_iff.mp hphrase
  split at h
  · cases h
  · obtain rfl := Option.some.inj h
    exact suffix_of_afterWords? hafter

theorem suffix_of_afterVerb? {verbs : List Text} (h : afterVerb? verbs t = some rest) :
    rest <:+ t := by
  obtain ⟨verb, _, hverb⟩ := List.exists_of_findSome?_eq_some h
  obtain ⟨after, hafter, h⟩ := Option.bind_eq_some_iff.mp hverb
  split at h
  · obtain rfl := Option.some.inj h
    exact (List.dropWhile_suffix _).trans (suffix_of_after? hafter)
  · cases h

theorem dropSoftener_suffix (t : Text) : dropSoftener t <:+ t := by
  unfold dropSoftener
  split
  · rename_i after h
    exact (List.dropWhile_suffix _).trans (suffix_of_afterPhrase? h)
  · exact List.suffix_rfl

theorem suffix_of_adjustment? {verbs : List Text} {token items : Text}
    (h : adjustment? verbs t = some (token, items)) : items <:+ t := by
  obtain ⟨after, hafter, h⟩ := Option.bind_eq_some_iff.mp h
  simp only at h
  split at h
  · obtain ⟨_, rfl⟩ := Prod.mk.inj (Option.some.inj h)
    exact (List.dropWhile_suffix _).trans
      ((List.dropWhile_suffix _).trans (suffix_of_afterVerb? hafter))
  · cases h

/-- The items that the intent is about. -/
def Intent.items : Intent → Text
  | remove items => items
  | adjust _ _ items => items
  | add items => items

/-- The items are part of the command. -/
theorem mem_items_intent (hc : c ∈ (intent t).items) : c ∈ t := by
  unfold intent at hc
  split at hc
  · rename_i items h
    exact (suffix_of_afterPhrase? h).subset (Text.mem_of_mem_trim hc)
  · split at hc
    · rename_i h
      exact (suffix_of_adjustment? h).subset hc
    · split at hc
      · rename_i h
        exact (suffix_of_adjustment? h).subset hc
      · exact (dropSoftener_suffix t).subset hc

/-! ## Names and notes -/

/-- All characters are in lower case, and none is a comma. -/
def Spoken (t : Text) : Prop := ∀ c ∈ t, Text.Lowered c ∧ c ≠ ','

/-- A name that nothing is left to be done to. -/
structure NormalName (name : Text) : Prop where
  ne_nil : name ≠ []
  itemName : itemName name = name
  normalize : normalize name = name
  matchKey : Text.matchKey name = name
  noComma : ',' ∉ name

theorem Spoken.of_mem (h : Spoken t) (hs : ∀ c ∈ s, c = ' ' ∨ c ∈ t) : Spoken s := by
  intro c hc
  rcases hs c hc with rfl | hc
  · decide +kernel
  · exact h c hc

theorem spoken_segment (ht : ∀ c ∈ t, Text.Lowered c) (hs : s ∈ segments t) : Spoken s := by
  intro c hc
  obtain ⟨hmem, hcomma⟩ := (mem_segments hs).2 c hc
  exact ⟨ht c hmem, hcomma⟩

/-- **A name that is made of what was said is in normal form.** -/
theorem normalName_itemName (ht : Spoken t) (hne : (itemName t).isEmpty = false) :
    NormalName (itemName t) := by
  have hname : Spoken (itemName t) := ht.of_mem fun c => mem_itemName
  have hlower : Text.lower (itemName t) = itemName t :=
    Text.lowerFrom_of_lowered fun c hc => (hname c hc).1
  exact
    { ne_nil := by simpa using hne
      itemName := itemName_itemName t
      normalize := by rw [Utterance.normalize, collapse_itemName, hlower]
      matchKey := by rw [Text.matchKey, strip_itemName, hlower]
      noComma := fun hcomma => (hname ',' hcomma).2 rfl }

/-! ## Entries -/

theorem removal?_spoken {e : RemoveEntry} (hs : Spoken s) (h : removal? s = some e) :
    NormalName e.name := by
  simp only [removal?] at h
  split at h
  · cases h
  · rename_i hne
    obtain rfl := Option.some.inj h
    exact normalName_itemName hs (Bool.eq_false_iff.mpr hne)

theorem quantityChange?_spoken {delta : Int} {e : AdjustEntry} (hs : Spoken s)
    (h : quantityChange? delta s = some e) : NormalName e.name ∧ e.delta = delta := by
  simp only [quantityChange?] at h
  split at h
  · cases h
  · rename_i hne
    obtain rfl := Option.some.inj h
    exact ⟨normalName_itemName hs (Bool.eq_false_iff.mpr hne), rfl⟩

/-- A note, where there is one, says something, and no comma. -/
def ProperNote (note : Option Text) : Prop := ∀ text ∈ note, text ≠ [] ∧ ',' ∉ text

theorem addEntries_spoken {e : AddEntry} (hs : Spoken s) (h : e ∈ addEntries limits s) :
    NormalName e.name ∧ Sayable limits e.quantity ∧ ProperNote e.note := by
  obtain ⟨g, hg, h⟩ := List.mem_filterMap.mp h
  simp only [Group.addition?] at h
  split at h
  · cases h
  · rename_i hne
    obtain rfl := Option.some.inj h
    have htext : Spoken g.text := hs.of_mem fun c => mem_groupText hg
    have hnoted : Spoken (takeNote g.text).text := htext.of_mem fun c => mem_text_takeNote
    refine ⟨normalName_itemName hnoted (Bool.eq_false_iff.mpr hne), ?_, fun note hnote => ?_⟩
    · cases hquantity : g.quantity with
      | none => exact sayable_one limits
      | some n =>
        obtain ⟨token, _, htoken⟩ := (mem_groups hg).1 n hquantity
        exact sayable_of_quantity? htoken
    · obtain ⟨hne, hmem⟩ := mem_note_takeNote hnote
      exact ⟨hne, fun hcomma => (htext ',' (hmem ',' hcomma)).2 rfl⟩

theorem signedDelta_eq (limits : Limits) (up : Bool) (token : Text) :
    ∃ size, Sayable limits size ∧ signedDelta limits up token = if up then size else -size := by
  refine ⟨(quantity? limits token).getD 1, ?_, rfl⟩
  cases hquantity : quantity? limits token with
  | none => exact sayable_one limits
  | some n => exact sayable_of_quantity? hquantity

/-! ## Plans -/

/-- A plan with one kind of entry, whose entries are as a command can say them. -/
structure WellFormed (limits : Limits) (plan : Plan) : Prop where
  oneKind : (plan.remove = [] ∧ plan.adjust = []) ∨ (plan.add = [] ∧ plan.adjust = []) ∨
    (plan.add = [] ∧ plan.remove = [])
  names : ∀ e ∈ plan.entries, NormalName e.name
  quantities : ∀ e ∈ plan.add, Sayable limits e.quantity
  notes : ∀ e ∈ plan.add, ProperNote e.note
  deltas : ∃ size delta, Sayable limits size ∧ (delta = size ∨ delta = -size) ∧
    ∀ e ∈ plan.adjust, e.delta = delta

/-- What holds of every entry holds of those of each kind. -/
theorem forall_mem_entries {plan : Plan} {q : Entry → Prop} :
    (∀ e ∈ plan.entries, q e) ↔ (∀ a ∈ plan.adjust, q (.adjust a)) ∧
      (∀ r ∈ plan.remove, q (.remove r)) ∧ ∀ a ∈ plan.add, q (.add a) := by
  simp only [Plan.entries, List.forall_mem_append, List.forall_mem_map, and_assoc]

theorem wellFormed_empty (limits : Limits) (raw : Text) : WellFormed limits (Plan.empty raw) where
  oneKind := Or.inl ⟨rfl, rfl⟩
  names := nofun
  quantities := nofun
  notes := nofun
  deltas := ⟨1, 1, sayable_one limits, Or.inl rfl, nofun⟩

theorem wellFormed_remove (raw : Text) {entries : List RemoveEntry}
    (h : ∀ e ∈ entries, NormalName e.name) :
    WellFormed limits { Plan.empty raw with remove := entries } :=
  { wellFormed_empty limits raw with
    oneKind := Or.inr (Or.inl ⟨rfl, rfl⟩)
    names := forall_mem_entries.mpr ⟨nofun, h, nofun⟩ }

theorem wellFormed_adjust (raw : Text) {entries : List AdjustEntry} {size delta : Int}
    (hsize : Sayable limits size) (hdelta : delta = size ∨ delta = -size)
    (h : ∀ e ∈ entries, NormalName e.name ∧ e.delta = delta) :
    WellFormed limits { Plan.empty raw with adjust := entries } :=
  { wellFormed_empty limits raw with
    oneKind := Or.inr (Or.inr ⟨rfl, rfl⟩)
    names := forall_mem_entries.mpr ⟨fun e he => (h e he).1, nofun, nofun⟩
    deltas := ⟨size, delta, hsize, hdelta, fun e he => (h e he).2⟩ }

theorem wellFormed_add (raw : Text) {entries : List AddEntry}
    (h : ∀ e ∈ entries, NormalName e.name ∧ Sayable limits e.quantity ∧ ProperNote e.note) :
    WellFormed limits { Plan.empty raw with add := entries } :=
  { wellFormed_empty limits raw with
    oneKind := Or.inl ⟨rfl, rfl⟩
    names := forall_mem_entries.mpr ⟨nofun, nofun, fun e he => (h e he).1⟩
    quantities := fun e he => (h e he).2.1
    notes := fun e he => (h e he).2.2 }

/-- **What is said in lower case gives a well-formed plan**, whatever the intent. -/
theorem wellFormed_plan (limits : Limits) (raw : Text) {i : Intent}
    (hitems : ∀ c ∈ i.items, Text.Lowered c) : WellFormed limits (i.plan limits raw) := by
  cases i with
  | remove items =>
    refine wellFormed_remove raw fun e he => ?_
    obtain ⟨s, hs, hsome⟩ := List.mem_filterMap.mp he
    exact removal?_spoken (spoken_segment hitems hs) hsome
  | adjust up token items =>
    obtain ⟨size, hsize, hdelta⟩ := signedDelta_eq limits up token
    have hsign : signedDelta limits up token = size ∨ signedDelta limits up token = -size := by
      cases up with
      | true => exact Or.inl hdelta
      | false => exact Or.inr hdelta
    refine wellFormed_adjust raw hsize hsign fun e he => ?_
    obtain ⟨s, hs, hsome⟩ := List.mem_filterMap.mp he
    exact quantityChange?_spoken (spoken_segment hitems hs) hsome
  | add items =>
    refine wellFormed_add raw fun e he => ?_
    obtain ⟨s, hs, hmem⟩ := List.mem_flatMap.mp he
    exact addEntries_spoken (spoken_segment hitems hs) hmem

theorem wellFormed_compile (limits : Limits) (utterance : Text) :
    WellFormed limits (compile limits utterance) ∧ (compile limits utterance).raw = utterance := by
  rw [compile_eq_plan]
  refine ⟨wellFormed_plan limits utterance fun c hc =>
    lowered_of_mem_normalize (mem_items_intent hc), ?_⟩
  cases intent (normalize utterance) <;> rfl

/-- Within limits that leave room for the number words, the entries are within the
bounds. -/
theorem WellFormed.admissible {plan : Plan} (h : WellFormed limits plan)
    (hlimits : 10 ≤ limits.quantity) : plan.Admissible limits := by
  have hbound : ∀ n, Sayable limits n → n ≤ limits.quantity := by
    intro n hn
    rcases hn.2 with hle | hle
    · exact hle
    · exact Int.le_trans hle hlimits
  obtain ⟨hadjust, hremove, hadd⟩ := forall_mem_entries.mp h.names
  refine ⟨fun e he => ?_, fun e he => (hremove e he).ne_nil, fun e he => ?_⟩
  · have hquantity := h.quantities e he
    exact ⟨(hadd e he).ne_nil, hquantity.1, hbound _ hquantity⟩
  · obtain ⟨size, delta, hsize, hdelta, hall⟩ := h.deltas
    have hle := hbound size hsize
    have hone := hsize.1
    refine ⟨(hadjust e he).ne_nil, ?_⟩
    rw [hall e he]
    omega

/-- **Every command compiles to a well-formed plan.**  The plan keeps the words of
the command, passes every check that is made of a plan, and has one kind of entry
at most; its numbers are from one to 999 in size, all adjustments being by the
same; its notes say something; no comma is left in a name or a note, and nothing
is left to be done to a name. -/
theorem compile_wellFormed (utterance : Option Text) :
    let raw := utterance.getD []
    let plan := compile .standard raw
    plan.raw = raw ∧ plan.Admissible .standard ∧
      Plan.ofJson .standard .document plan.toJson = .ok plan ∧
      ((plan.remove = [] ∧ plan.adjust = []) ∨ (plan.add = [] ∧ plan.adjust = []) ∨
        (plan.add = [] ∧ plan.remove = [])) ∧
      (∀ e ∈ plan.add, 1 ≤ e.quantity ∧ e.quantity ≤ 999) ∧
      (∃ delta, delta ≠ 0 ∧ -999 ≤ delta ∧ delta ≤ 999 ∧ ∀ e ∈ plan.adjust, e.delta = delta) ∧
      (∀ e ∈ plan.add, ∀ note ∈ e.note, note ≠ [] ∧ ',' ∉ note) ∧
      ∀ e ∈ plan.entries, NormalName e.name := by
  intro raw plan
  obtain ⟨hplan, hraw⟩ := wellFormed_compile .standard raw
  have hadmissible : plan.Admissible .standard := hplan.admissible (by decide)
  have hbound : ∀ n, Sayable .standard n → n ≤ 999 := by
    intro n hn
    have hlimit : Limits.standard.quantity = 999 := rfl
    rcases hn.2 with hle | hle <;> omega
  refine ⟨hraw, hadmissible, Plan.ofJson_toJson .document hadmissible, hplan.oneKind,
    fun e he => ⟨(hplan.quantities e he).1, hbound _ (hplan.quantities e he)⟩, ?_, hplan.notes,
    hplan.names⟩
  obtain ⟨size, delta, hsize, hdelta, hall⟩ := hplan.deltas
  have hle := hbound size hsize
  have hone := hsize.1
  exact ⟨delta, by omega, by omega, by omega, hall⟩

end SpokenList.Utterance
