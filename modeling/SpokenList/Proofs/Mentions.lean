import SpokenList.Proofs.Notes
import SpokenList.Proofs.Quantities

/-! # Mentions of items

An item is mentioned by how many of it are wanted, perhaps a unit, its name, and
perhaps a note (`Mention.text`).  The mention is clear if its name is plain, that is, if
nothing in it means anything else in a command (`PlainName`), and if the note has no
delimiter (`Mention.Clear`).

The words of a clear mention are read as one group, which the quantity of the next
mention closes (`Mention.Clear.groupsFrom_words`), and the group stands for the entry that
was meant (`Mention.Clear.addition?`).  So an enumeration of clear mentions adds what was
mentioned, whatever stands between them (`compile_enumerate`).
-/
namespace SpokenList.Utterance

open Text (isBlank)

variable {limits : Limits} {n : Int} {t w x name : Text} {tokens rest : List Text} {r : Reading}

/-! ## Plain names -/

/-- A name in normal form that nothing but an item is read from. -/
structure PlainName (limits : Limits) (name : Text) : Prop where
  ne_nil : name ≠ []
  normalize : normalize name = name
  itemName : itemName name = name
  noComma : ',' ∉ name
  noOpening : '(' ∉ name
  noClosing : ')' ∉ name
  words : ∀ w ∈ Text.words name, quantity? limits w = none ∧ w ∉ fillerWords ∧ w ≠ "plus"

instance : Decidable (PlainName limits name) :=
  decidable_of_iff (name ≠ [] ∧ Utterance.normalize name = name ∧ Utterance.itemName name = name ∧
      (',' ∉ name ∧ '(' ∉ name ∧ ')' ∉ name) ∧
      ∀ w ∈ Text.words name, quantity? limits w = none ∧ w ∉ fillerWords ∧ w ≠ "plus")
    ⟨fun ⟨hne, hform, hname, ⟨hcomma, hopening, hclosing⟩, hwords⟩ =>
        ⟨hne, hform, hname, hcomma, hopening, hclosing, hwords⟩,
      fun ⟨hne, hform, hname, hcomma, hopening, hclosing, hwords⟩ =>
        ⟨hne, hform, hname, ⟨hcomma, hopening, hclosing⟩, hwords⟩⟩

namespace PlainName

theorem unbroken (h : PlainName limits name) : Unbroken name where
  ne_nil := h.ne_nil
  normalize := h.normalize
  noComma := h.noComma
  noJoiner := by
    have hall : ∀ w ∈ joiningWords, w ∈ fillerWords ∨ w = "plus" := by decide
    intro w hw hjoiner
    exact (hall w hjoiner).elim (h.words w hw).2.1 (h.words w hw).2.2

/-- No word of the name is a quantity, a filler or part of a note. -/
theorem plain_words (h : PlainName limits name) : ∀ w ∈ Text.words name,
    '(' ∉ w ∧ quantity? limits w = none ∧ w ∉ fillerWords := fun w hw =>
  ⟨fun hmem => h.noOpening ((Text.mem_fields hw).2 _ hmem), (h.words w hw).1, (h.words w hw).2.1⟩

theorem words_ne_nil (h : PlainName limits name) : Text.words name ≠ [] := fun hnil =>
  h.ne_nil (h.normalize.symm.trans (normalize_eq_nil.mpr hnil))

end PlainName

/-! ## Tokens of letters and digits -/

theorem isField_of_alphabet (hne : w ≠ []) (h : ∀ c ∈ w, c ∈ alphabet) : Text.IsField isBlank w :=
  ⟨hne, fun c hc => (plain_of_mem_alphabet (h c hc)).1⟩

theorem unbroken_of_alphabet (hne : w ≠ []) (h : ∀ c ∈ w, c ∈ alphabet) (hw : w ∉ joiningWords) :
    Unbroken w where
  ne_nil := hne
  normalize := by
    have hcollapse : Text.collapse w = w :=
      (congrArg (Text.join [' ']) (isField_of_alphabet hne h).fields).trans (Text.join_singleton w)
    rw [Utterance.normalize, hcollapse]
    exact Text.lowerFrom_of_lowered fun c hc => (plain_of_mem_alphabet (h c hc)).2.1
  noComma := fun hmem => (plain_of_mem_alphabet (h _ hmem)).2.2.1 rfl
  noJoiner := by
    rw [Text.words_eq_fields, (isField_of_alphabet hne h).fields]
    simpa using hw

theorem noOpening_of_alphabet (h : ∀ c ∈ w, c ∈ alphabet) : '(' ∉ w := fun hmem =>
  (plain_of_mem_alphabet (h _ hmem)).2.2.2 rfl

theorem isField_of_quantity? (h : quantity? limits w = some n) : Text.IsField isBlank w := by
  refine isField_of_alphabet ?_ fun _ => mem_alphabet_of_quantity? h
  rintro rfl
  rw [quantity?_nil] at h
  cases h

theorem unbroken_of_quantity? (h : quantity? limits w = some n) : Unbroken w := by
  refine unbroken_of_alphabet (isField_of_quantity? h).1 (fun _ => mem_alphabet_of_quantity? h) ?_
  intro hjoiner
  rw [quantity?_eq_none (by simp [hjoiner])] at h
  cases h

theorem isField_of_mem_unitWords (h : w ∈ unitWords) : Text.IsField isBlank w := by
  have hall : ∀ w ∈ unitWords, w ≠ [] := by decide
  exact isField_of_alphabet (hall w h) fun _ => mem_alphabet_of_mem_unitWords h

theorem unbroken_of_mem_unitWords (h : w ∈ unitWords) : Unbroken w := by
  have hall : ∀ w ∈ unitWords, w ∉ joiningWords := by decide
  exact unbroken_of_alphabet (isField_of_mem_unitWords h).1
    (fun _ => mem_alphabet_of_mem_unitWords h) (hall w h)

/-! ## Reading one token -/

theorem group_of_ne_nil (h : r.words ≠ []) : r.group = [⟨r.quantity, r.words⟩] := by
  rw [Reading.group, if_neg (by simpa using h)]

theorem groupsFrom_cons_quantity (hr : r.depth = 0) (hw : quantity? limits w = some n) :
    groupsFrom limits r (w :: rest) = r.group ++ groupsFrom limits (.opened n) rest := by
  have hopening : '(' ∉ w := noOpening_of_alphabet fun _ => mem_alphabet_of_quantity? hw
  rw [groupsFrom, if_neg (by simp [hr, hopening]), hw]

theorem groupsFrom_cons_unit (hw : w ∈ unitWords) :
    groupsFrom limits (.opened n) (w :: rest) = groupsFrom limits (Reading.opened n).pass rest := by
  have hopening : '(' ∉ w := noOpening_of_alphabet fun _ => mem_alphabet_of_mem_unitWords hw
  rw [groupsFrom, if_neg (by simp [Reading.opened, hopening]),
    quantity?_eq_none (by simp [hw])]
  exact if_pos (by simp [Reading.opened, hw])

theorem groupsFrom_cons_plain (hr : r.depth = 0) (hopening : '(' ∉ w)
    (hunit : r.afterQuantity = true → w ∉ unitWords)
    (hw : quantity? limits w = none ∧ w ∉ fillerWords) :
    groupsFrom limits r (w :: rest) = groupsFrom limits (r.keep w) rest := by
  rw [groupsFrom, if_neg (by simp [hr, hopening]), hw.1]
  refine if_neg ?_
  simpa [hw.2] using hunit

/-- All words of a plain name are kept, if the first is not taken for the unit. -/
theorem groupsFrom_plain (hne : tokens ≠ []) (hr : r.depth = 0)
    (hunit : r.afterQuantity = true → ∀ w ∈ tokens.head?, w ∉ unitWords)
    (htokens : ∀ w ∈ tokens, '(' ∉ w ∧ quantity? limits w = none ∧ w ∉ fillerWords) :
    groupsFrom limits r (tokens ++ rest) =
      groupsFrom limits ⟨r.quantity, r.words ++ tokens, false, 0⟩ rest := by
  induction tokens generalizing r with
  | nil => exact absurd rfl hne
  | cons w others ih =>
    obtain ⟨⟨hopening, hw⟩, hothers⟩ := List.forall_mem_cons.mp htokens
    rw [List.cons_append, groupsFrom_cons_plain hr hopening (fun h => hunit h w rfl) hw]
    by_cases hnil : others = []
    · subst hnil
      rw [List.nil_append, Reading.keep, hr]
    · have hkept := ih (r := r.keep w) hnil hr (fun h => absurd h Bool.false_ne_true) hothers
      rw [hkept, Reading.keep, List.append_assoc]
      rfl

/-! ## Labels -/

/-- A label is made of its name again, and of its note, however the note ends. -/
theorem addition?_noted (hname : PlainName limits name) (htokens : tokens ≠ [])
    (hjoin : Text.join [' '] tokens = '(' :: x) (hend : (x.dropWhile (· != ')')).drop 1 = []) :
    Group.addition? ⟨some n, Text.words name ++ tokens⟩ =
      some ⟨name, n, nonEmpty? (Text.strip (x.takeWhile (· != ')')))⟩ := by
  have htext : Group.text ⟨some n, Text.words name ++ tokens⟩ = (name ++ [' ']) ++ '(' :: x := by
    have hcollapse : Text.join [' '] (Text.words name) = name := hname.unbroken.collapse
    rw [Group.text, Text.join_append hname.words_ne_nil htokens, hcollapse, hjoin]
    simp
  have hstrip : Text.strip (name ++ [' '] ++ ' ' :: []) = name := by
    rw [Text.strip, Text.trim_append_right Text.isBlank_of_mem_space,
      Text.trim_append_right Text.isBlank_of_mem_space]
    exact Text.trim_eq_self_iff.mpr hname.unbroken.trimmed
  have hopening : '(' ∉ name ++ [' '] := by simp [hname.noOpening]
  rw [Group.addition?, htext, takeNote_append hopening, hend, hstrip]
  simp only [hname.itemName]
  rw [if_neg (by simpa using hname.ne_nil)]
  rfl

theorem addition?_name (hname : PlainName limits name) :
    Group.addition? ⟨some n, Text.words name⟩ = some ⟨name, n, none⟩ := by
  have htext : Group.text ⟨some n, Text.words name⟩ = name := hname.unbroken.collapse
  have hstrip : Text.strip name = name := Text.trim_eq_self_iff.mpr hname.unbroken.trimmed
  rw [Group.addition?, htext, takeNote_of_notMem hname.noOpening, hstrip]
  simp only [hname.itemName]
  rw [if_neg (by simpa using hname.ne_nil)]
  rfl

theorem addition?_inParentheses (hname : PlainName limits name) (ht : NoteText t) :
    Group.addition? ⟨some n, Text.words name ++ Text.words (inParentheses t)⟩ =
      some ⟨name, n, some t⟩ := by
  have hinside : ∀ c ∈ t, (c != ')') = true := fun c hc =>
    bne_iff_ne.mpr fun heq => ht.noClosing (heq ▸ hc)
  have htake : (t ++ [')']).takeWhile (· != ')') = t := by
    rw [List.takeWhile_append_of_pos hinside]
    exact List.append_nil t
  have hdrop : ((t ++ [')']).dropWhile (· != ')')).drop 1 = [] := by
    rw [List.dropWhile_append_of_pos hinside]
    rfl
  have hwords : Text.words (inParentheses t) ≠ [] := by
    obtain ⟨before, last, -, hwords⟩ := ht.words_inParentheses
    simp [hwords]
  have hstrip : Text.strip t = t := Text.trim_eq_self_iff.mpr ht.trimmed
  rw [addition?_noted hname hwords ht.collapse_inParentheses hdrop, htake, hstrip, nonEmpty?,
    if_neg (by simpa using ht.ne_nil)]

/-! ## Mentions -/

/-- An item as it is said: the words for how many and for what the number counts, and
the entry that is meant. -/
structure Mention where
  amount : Text
  unit : Option Text
  entry : AddEntry
  deriving DecidableEq, Repr

namespace Mention

variable {m : Mention} {run : List Mention}

/-- What is said, part by part. -/
def parts (m : Mention) : List Text :=
  m.amount :: (m.unit.toList ++ m.entry.name :: (m.entry.note.map inParentheses).toList)

/-- What is said. -/
def text (m : Mention) : Text := Text.join [' '] m.parts

/-- Nothing that is said can mean anything else. -/
structure Clear (limits : Limits) (m : Mention) : Prop where
  amount : Spells m.amount m.entry.quantity
  one_le : 1 ≤ m.entry.quantity
  le_limit : m.entry.quantity ≤ limits.quantity
  unit : ∀ w ∈ m.unit, w ∈ unitWords
  name : PlainName limits m.entry.name
  noUnit : m.unit = none → ∀ w ∈ (Text.words m.entry.name).head?, w ∉ unitWords
  note : ∀ t ∈ m.entry.note, NoteText t ∧ ',' ∉ t ∧ ∀ w ∈ Text.words t, w ∉ joiningWords

instance (limits : Limits) (m : Mention) : Decidable (m.Clear limits) :=
  decidable_of_iff (Spells m.amount m.entry.quantity ∧
      (1 ≤ m.entry.quantity ∧ m.entry.quantity ≤ limits.quantity) ∧
      (∀ w ∈ m.unit, w ∈ unitWords) ∧ PlainName limits m.entry.name ∧
      (m.unit = none → ∀ w ∈ (Text.words m.entry.name).head?, w ∉ unitWords) ∧
      ∀ t ∈ m.entry.note, NoteText t ∧ ',' ∉ t ∧ ∀ w ∈ Text.words t, w ∉ joiningWords)
    ⟨fun ⟨hamount, ⟨hone, hle⟩, hunit, hname, hno, hnote⟩ =>
        ⟨hamount, hone, hle, hunit, hname, hno, hnote⟩,
      fun ⟨hamount, hone, hle, hunit, hname, hno, hnote⟩ =>
        ⟨hamount, ⟨hone, hle⟩, hunit, hname, hno, hnote⟩⟩

/-- The words about the item, after the quantity and the unit. -/
def label (m : Mention) : List Text :=
  Text.words m.entry.name ++ (m.entry.note.map inParentheses).toList.flatMap Text.words

/-- The group that the mention is read as. -/
def group (m : Mention) : Group := ⟨some m.entry.quantity, m.label⟩

namespace Clear

theorem quantity?_amount (h : m.Clear limits) :
    quantity? limits m.amount = some m.entry.quantity :=
  quantity?_of_spells h.amount h.one_le h.le_limit

/-! ### What is said -/

theorem unbroken_note (h : m.Clear limits) :
    ∀ w ∈ m.entry.note.map inParentheses, Unbroken w := by
  intro w hw
  obtain ⟨t, ht, rfl⟩ := Option.map_eq_some_iff.mp hw
  obtain ⟨hnote, hcomma, hwords⟩ := h.note t ht
  exact hnote.unbroken_inParentheses (not_delimited hcomma hwords)

/-- A clear mention is one part of an enumeration. -/
theorem unbroken (h : m.Clear limits) : Unbroken m.text := by
  refine Unbroken.join (List.cons_ne_nil _ _) fun part hpart => ?_
  rcases List.mem_cons.mp hpart with rfl | hpart
  · exact unbroken_of_quantity? h.quantity?_amount
  · rcases List.mem_append.mp hpart with hpart | hpart
    · exact unbroken_of_mem_unitWords (h.unit part (Option.mem_toList.mp hpart))
    · rcases List.mem_cons.mp hpart with rfl | hpart
      · exact h.name.unbroken
      · exact h.unbroken_note part (Option.mem_toList.mp hpart)

theorem words_text (h : m.Clear limits) :
    Text.words m.text = m.amount :: (m.unit.toList ++ m.label) := by
  have hamount : Text.words m.amount = [m.amount] := (isField_of_quantity? h.quantity?_amount).fields
  have hunit : m.unit.toList.flatMap Text.words = m.unit.toList := by
    have hone : ∀ w ∈ m.unit.toList, Text.words w = [w] := fun w hw =>
      (isField_of_mem_unitWords (h.unit w (Option.mem_toList.mp hw))).fields
    rw [List.flatMap_congr hone, List.flatMap_singleton']
  calc Text.words m.text = m.parts.flatMap Text.words :=
        Text.fields_join_eq_flatMap (by decide) m.parts
    _ = m.amount :: (m.unit.toList ++ m.label) := by
        rw [parts, List.flatMap_cons, List.flatMap_append, List.flatMap_cons, hamount, hunit, label]
        rfl

/-! ### What is read -/

/-- After the quantity the unit is passed over, and the name is kept. -/
theorem groupsFrom_opened (h : m.Clear limits) :
    groupsFrom limits (.opened n) (m.unit.toList ++ (Text.words m.entry.name ++ rest)) =
      groupsFrom limits ⟨some n, Text.words m.entry.name, false, 0⟩ rest := by
  cases hunit : m.unit with
  | none =>
    exact groupsFrom_plain h.name.words_ne_nil rfl (fun _ => h.noUnit hunit) h.name.plain_words
  | some w =>
    rw [Option.toList_some, List.singleton_append, groupsFrom_cons_unit (h.unit w hunit)]
    exact groupsFrom_plain h.name.words_ne_nil rfl (fun h => absurd h Bool.false_ne_true)
      h.name.plain_words

/-- **A clear mention is read as one group**, which closes the group before it. -/
theorem groupsFrom_words (h : m.Clear limits) (hr : r.depth = 0) :
    groupsFrom limits r (Text.words m.text ++ rest) =
      r.group ++ groupsFrom limits ⟨some m.entry.quantity, m.label, false, 0⟩ rest := by
  rw [h.words_text, List.cons_append, groupsFrom_cons_quantity hr h.quantity?_amount, label,
    List.append_assoc, List.append_assoc, h.groupsFrom_opened]
  cases hnote : m.entry.note with
  | none => simp
  | some t =>
    have hread := groupsFrom_inParentheses limits rest
      (r := ⟨some m.entry.quantity, Text.words m.entry.name, false, 0⟩) (h.note t hnote).1 rfl
    simpa using hread

end Clear

/-- A run of mentions, with spaces between them, is read mention by mention. -/
theorem groupsFrom_run (hrun : ∀ m ∈ run, m.Clear limits) (hr : r.depth = 0) :
    groupsFrom limits r (run.flatMap fun m => Text.words m.text) = r.group ++ run.map group := by
  induction run generalizing r with
  | nil => simp [groupsFrom]
  | cons m others ih =>
    obtain ⟨hm, hothers⟩ := List.forall_mem_cons.mp hrun
    have hgroup : Reading.group ⟨some m.entry.quantity, m.label, false, 0⟩ = [m.group] :=
      group_of_ne_nil (List.append_ne_nil_of_left_ne_nil hm.name.words_ne_nil _)
    rw [List.flatMap_cons, hm.groupsFrom_words hr, ih hothers rfl, hgroup, List.map_cons]
    rfl

/-! ### What is added -/

/-- **The group of a clear mention stands for its entry.** -/
theorem Clear.addition? (h : m.Clear limits) : m.group.addition? = some m.entry := by
  cases hnote : m.entry.note with
  | none =>
    have hgroup : m.group = ⟨some m.entry.quantity, Text.words m.entry.name⟩ := by
      simp [group, label, hnote]
    rw [hgroup, addition?_name h.name, ← hnote]
  | some t =>
    have hgroup : m.group = ⟨some m.entry.quantity,
        Text.words m.entry.name ++ Text.words (inParentheses t)⟩ := by
      simp [group, label, hnote]
    rw [hgroup, addition?_inParentheses h.name (h.note t hnote).1, ← hnote]

/-- A run of mentions, with spaces between them, adds what is mentioned. -/
theorem addEntries_run (hrun : ∀ m ∈ run, m.Clear limits) :
    addEntries limits (Text.join [' '] (run.map text)) = run.map (·.entry) := by
  have hwords : Text.words (Text.join [' '] (run.map text)) =
      run.flatMap fun m => Text.words m.text := by
    rw [Text.words_eq_fields, Text.fields_join_eq_flatMap (by decide), List.flatMap_map]
    rfl
  have hread : groups limits (Text.join [' '] (run.map text)) = run.map group := by
    rw [groups, hwords]
    exact groupsFrom_run hrun rfl
  calc addEntries limits (Text.join [' '] (run.map text))
      = run.filterMap fun m => m.group.addition? := by
        rw [addEntries, hread, List.filterMap_map, Function.comp_def]
    _ = run.filterMap fun m => some m.entry :=
        List.filterMap_congr fun m hm => (hrun m hm).addition?
    _ = run.map (·.entry) := by rw [← List.filterMap_eq_map]; rfl

/-- Run by run an enumeration adds what is mentioned. -/
theorem addEntries_runs {rest : List (Joiner × Mention)} (hne : run ≠ [])
    (hrun : ∀ m ∈ run, m.Clear limits) (hrest : ∀ x ∈ rest, x.2.Clear limits) :
    (runs (Text.join [' '] (run.map text)) (rest.map fun x => (x.1, x.2.text))).flatMap
      (addEntries limits) = run.map (·.entry) ++ rest.map (·.2.entry) := by
  induction rest generalizing run with
  | nil => simp [runs, addEntries_run hrun]
  | cons x rest ih =>
    obtain ⟨j, next⟩ := x
    obtain ⟨hnext, hothers⟩ := List.forall_mem_cons.mp hrest
    by_cases hj : j = .space
    · subst hj
      have hjoin : Text.join [' '] ((run ++ [next]).map text) =
          Text.join [' '] (run.map text) ++ ' ' :: next.text := by
        rw [List.map_append, Text.join_append (by simpa using hne) (by simp), List.map_singleton,
          Text.join_singleton]
      have hlonger := @ih (run ++ [next]) (by simp)
        (List.forall_mem_append.mpr ⟨hrun, by simpa using hnext⟩) hothers
      rw [hjoin] at hlonger
      rw [List.map_cons, runs, hlonger]
      simp
    · have hsingle := @ih [next] (by simp) (by simpa using hnext) hothers
      rw [List.map_singleton, Text.join_singleton] at hsingle
      rw [List.map_cons, runs_cons hj, List.flatMap_cons, addEntries_run hrun, hsingle]
      rfl

end Mention

/-- **An enumeration of clear mentions is read back.**  What is mentioned is added, in that
order, whatever stands between the mentions, and nothing else is asked for. -/
theorem compile_enumerate (limits : Limits) {first : Mention} {rest : List (Joiner × Mention)}
    (hfirst : first.Clear limits) (hrest : ∀ x ∈ rest, x.2.Clear limits) :
    let command := "add " ++ enumerate first.text (rest.map fun x => (x.1, x.2.text))
    compile limits command = ⟨first.entry :: rest.map (·.2.entry), [], [], command⟩ := by
  have hparts : ∀ x ∈ rest.map fun x => (x.1, x.2.text), Unbroken x.2 := by
    intro x hx
    obtain ⟨y, hy, rfl⟩ := List.mem_map.mp hx
    exact (hrest y hy).unbroken
  have hadd := Mention.addEntries_runs (List.cons_ne_nil first [])
    (by simpa using hfirst) hrest
  rw [List.map_singleton, Text.join_singleton, ← segments_enumerate hfirst.unbroken hparts] at hadd
  intro command
  rw [show compile limits command = _ from compile_add limits _,
    normalize_enumerate hfirst.unbroken hparts, Intent.plan, hadd]
  rfl

theorem compile_enumerate_mixedJoiners :
    Mention.Clear .standard ⟨"2", some "cans", ⟨"soup", 2, some "low salt"⟩⟩ ∧
      (∀ x ∈ [(Joiner.space, (⟨"ten", none, ⟨"αυγά", 10, none⟩⟩ : Mention)),
          (.and, ⟨"999", some "bags", ⟨"dog food", 999, some "2 of the big"⟩⟩),
          (.comma, ⟨"one", none, ⟨"7up", 1, none⟩⟩)], x.2.Clear .standard) ∧
      compile .standard
          "add 2 cans soup (low salt) ten αυγά and 999 bags dog food (2 of the big), one 7up" =
        ⟨[⟨"soup", 2, some "low salt"⟩, ⟨"αυγά", 10, none⟩,
          ⟨"dog food", 999, some "2 of the big"⟩, ⟨"7up", 1, none⟩], [], [],
          "add 2 cans soup (low salt) ten αυγά and 999 bags dog food (2 of the big), one 7up"⟩ :=
  (fun hfirst hrest => ⟨hfirst, hrest, compile_enumerate .standard hfirst hrest⟩)
    (by decide +kernel) (by decide +kernel)

end SpokenList.Utterance
