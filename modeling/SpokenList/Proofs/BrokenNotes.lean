import SpokenList.Proofs.Mentions

/-! # Notes that a delimiter breaks

Segments are made before notes are looked for, so a comma in a note, or a joining word
between blanks there, delimits as it does anywhere else.  The first segment then ends
inside the note (`pieces_inParentheses`), and what is kept as the note says less than was
said (`exists_flatMap_of_delimited`).  So a note is kept as it was said exactly if it has no delimiter
(`note_kept_iff`).
-/
namespace SpokenList.Utterance

open Text (isBlank)

variable {limits : Limits} {n : Int} {s t u amount name : Text}

/-! ## The first segment -/

/-- The first piece of a text ends inside its note, if a delimiter stands there and none
before. -/
theorem pieces_inParentheses (hs : ¬ Delimited s) (h : Delimited t) :
    ∃ front back others, t = front ++ back ∧ back ≠ [] ∧
      pieces 0 (s ++ inParentheses t) = (s ++ '(' :: front) :: others := by
  have hopening (u x : Text) (h : (delimiterLength? (u ++ '(' :: x)).isSome = true) :
      (delimiterLength? u).isSome = true :=
    isSome_of_isSome_append (by decide) (by decide) (by decide) h
  have hclosing (u x : Text) (h : (delimiterLength? (u ++ ')' :: x)).isSome = true) :
      (delimiterLength? u).isSome = true :=
    isSome_of_isSome_append (by decide) (by decide) (by decide) h
  have hwhole : Delimited (s ++ inParentheses t) :=
    h.of_isInfix ⟨s ++ ['('], [')'], by simp [inParentheses]⟩
  obtain ⟨piece, v, others, hsplit, hv, hpieces⟩ := pieces_of_delimited hwhole
  -- the delimiter is read in front of the note, at one of the parentheses, or inside
  rcases List.append_eq_append_iff.mp hsplit with ⟨a, rfl, hnote⟩ | ⟨a, rfl, rfl⟩
  · rcases List.cons_eq_append_iff.mp hnote with ⟨rfl, rfl⟩ | ⟨front, rfl, hinside⟩
    · cases hopening [] _ hv
    · rcases List.append_eq_append_iff.mp hinside with ⟨a, rfl, hend⟩ | ⟨back, rfl, rfl⟩
      · rcases List.cons_eq_append_iff.mp hend with ⟨rfl, rfl⟩ | ⟨_, rfl, hnil⟩
        · cases hclosing [] _ hv
        · rw [(List.append_eq_nil_iff.mp hnil.symm).2] at hv
          cases hv
      · have hback := hclosing back [] hv
        have hne : back ≠ [] := by
          rintro rfl
          cases hback
        exact ⟨front, back, others, rfl, hne, hpieces⟩
  · exact absurd (delimited_iff.mpr ⟨a, List.suffix_append piece a, hopening a _ hv⟩) hs

/-- Blanks around the pieces add nothing. -/
theorem flatMap_segments (limits : Limits) (t : Text) :
    (segments t).flatMap (addEntries limits) = (pieces 0 t).flatMap (addEntries limits) := by
  have hstrip (s : Text) : addEntries limits (Text.strip s) = addEntries limits s := by
    rw [addEntries, groups, Text.strip, Text.words_eq_fields, Text.fields_trim fun _ h => h]
    rfl
  rw [segments]
  induction pieces 0 t with
  | nil => rfl
  | cons s others ih =>
    rw [List.map_cons, List.flatMap_cons, ← ih, ← hstrip s, List.filter_cons]
    split
    · rfl
    · rename_i hempty
      have hnil : Text.strip s = [] := by simpa using hempty
      rw [hnil]
      rfl

/-! ## The note that is kept -/

/-- What is left of the words of a note says less. -/
theorem strip_ne (hx : Text.words ('(' :: s) = Text.words ('(' :: t)) (hu : u ≠ [])
    (hlast : ∀ c ∈ u.getLast?, isBlank c = false) : Text.strip s ≠ t ++ u := by
  intro hsame
  have hwords : s.filter (!isBlank ·) = t.filter (!isBlank ·) := by
    have hread := congrArg List.flatten hx
    rw [Text.words_eq_fields, Text.words_eq_fields, Text.flatten_fields, Text.flatten_fields,
      List.filter_cons_of_pos (by decide), List.filter_cons_of_pos (by decide)] at hread
    exact (List.cons.inj hread).2
  have hstrip : (Text.strip s).filter (!isBlank ·) = s.filter (!isBlank ·) := by
    rw [← Text.flatten_fields, ← Text.flatten_fields, Text.strip, Text.fields_trim fun _ h => h]
  rw [hsame, List.filter_append, hwords] at hstrip
  have hnone : u.filter (!isBlank ·) = [] := List.append_right_eq_self.mp hstrip
  have hblank := List.filter_eq_nil_iff.mp hnone _ (List.getLast_mem hu)
  rw [hlast _ (List.getLast?_eq_some_getLast hu)] at hblank
  exact hblank rfl

section Named

variable (hamount : quantity? limits amount = some n) (hname : PlainName limits name)
  (hunit : ∀ w ∈ (Text.words name).head?, w ∉ unitWords)
include hamount hname hunit

theorem groups_named (t : Text) :
    groups limits (amount ++ ' ' :: (name ++ ' ' :: t)) =
      groupsFrom limits ⟨some n, Text.words name, false, 0⟩ (Text.words t) := by
  have hwords : Text.words (amount ++ ' ' :: (name ++ ' ' :: t)) =
      amount :: (Text.words name ++ Text.words t) := by
    have hspace : isBlank ' ' = true := by decide
    rw [(isField_of_quantity? hamount).words_append_cons hspace, Text.words_append_cons hspace]
  rw [groups, hwords, groupsFrom_cons_quantity rfl hamount]
  exact groupsFrom_plain hname.words_ne_nil rfl (fun _ => hunit) hname.plain_words

/-- From a parenthesis on that is opened after the name, all words are about the item, if
only the last one may close any. -/
theorem addEntries_noted (hclose : ∀ w ∈ (Text.words ('(' :: t)).dropLast, ')' ∉ w) :
    addEntries limits (amount ++ ' ' :: (name ++ ' ' :: '(' :: t)) =
      (Group.addition? ⟨some n, Text.words name ++ Text.words ('(' :: t)⟩).toList := by
  obtain ⟨v, others, hfirst⟩ := words_opening t
  have hread := groupsFrom_noted limits [] (r := ⟨some n, Text.words name, false, 0⟩)
    (by simp [hfirst]) (Or.inr (by simp [hfirst])) hclose
  have hne : Text.words name ++ Text.words ('(' :: t) ≠ [] :=
    List.append_ne_nil_of_left_ne_nil hname.words_ne_nil _
  rw [List.append_nil, groupsFrom, group_of_ne_nil hne] at hread
  rw [addEntries, groups_named hamount hname hunit, hread]
  cases hadd : Group.addition? ⟨some n, Text.words name ++ Text.words ('(' :: t)⟩ with
  | none => exact List.filterMap_cons_none hadd
  | some e => exact List.filterMap_cons_some hadd

/-- A note that its segment closes is kept. -/
theorem addEntries_inParentheses (ht : NoteText t) :
    addEntries limits (amount ++ ' ' :: (name ++ ' ' :: inParentheses t)) =
      [⟨name, n, some t⟩] := by
  have hread := addEntries_noted hamount hname hunit ht.closing_notMem
  rw [← inParentheses, addition?_inParentheses hname ht] at hread
  exact hread

/-- Of a note that its segment does not close the words in the segment are kept. -/
theorem exists_addEntries_opening (ht : ')' ∉ t) :
    ∃ x, Text.words ('(' :: x) = Text.words ('(' :: t) ∧
      addEntries limits (amount ++ ' ' :: (name ++ ' ' :: '(' :: t)) =
        [⟨name, n, nonEmpty? (Text.strip x)⟩] := by
  have hclose : ∀ w ∈ (Text.words ('(' :: t)).dropLast, ')' ∉ w := fun w hw hmem => by
    have hin := (Text.mem_fields (List.dropLast_subset _ hw)).2 _ hmem
    exact ht (by simpa using hin)
  obtain ⟨x, hx⟩ := Text.exists_collapse_cons (c := '(') (by decide) t
  have hinside : ∀ c ∈ x, (c != ')') = true := fun c hc => bne_iff_ne.mpr fun heq => by
    have hmem : ')' ∈ Text.collapse ('(' :: t) := hx ▸ List.mem_cons_of_mem _ (heq ▸ hc)
    rcases Text.mem_collapse hmem with hspace | hin
    · cases hspace
    · exact ht (by simpa using hin)
  have hend : (x.dropWhile (· != ')')).drop 1 = [] := by
    rw [List.dropWhile_eq_nil_iff.mpr hinside]
    rfl
  obtain ⟨v, others, hfirst⟩ := words_opening t
  refine ⟨x, by rw [← hx, Text.words_collapse], ?_⟩
  rw [addEntries_noted hamount hname hunit hclose, addition?_noted hname (by simp [hfirst]) hx hend,
    List.takeWhile_eq_self_iff.mpr hinside]
  rfl

/-- A note in which a delimiter stands is cut short in the first entry. -/
theorem exists_flatMap_of_delimited (ht : NoteText t) (h : Delimited t) :
    ∃ note others, (segments (amount ++ ' ' :: (name ++ ' ' :: inParentheses t))).flatMap
      (addEntries limits) = ⟨name, n, note⟩ :: others ∧ note ≠ some t := by
  have hfront : Unbroken (amount ++ ' ' :: name) :=
    (unbroken_of_quantity? hamount).append_space hname.unbroken
  have hclear : ¬ Delimited (amount ++ ' ' :: name ++ [' ']) := by
    refine not_delimited (by simpa using hfront.noComma) ?_
    have hwords : Text.words (amount ++ ' ' :: name ++ [' ']) =
        Text.words (amount ++ ' ' :: name) :=
      Text.append_fields_of_separators Text.isBlank_of_mem_space _
    rw [hwords]
    exact hfront.noJoiner
  obtain ⟨front, back, others, rfl, hback, hpieces⟩ := pieces_inParentheses hclear h
  have hclosing : ')' ∉ front := fun hmem => ht.noClosing (List.mem_append_left back hmem)
  obtain ⟨x, hx, hread⟩ := exists_addEntries_opening hamount hname hunit hclosing
  simp only [List.append_assoc, List.cons_append, List.nil_append] at hpieces
  refine ⟨nonEmpty? (Text.strip x), others.flatMap (addEntries limits), ?_, ?_⟩
  · rw [flatMap_segments, hpieces, List.flatMap_cons, hread, List.singleton_append]
  · have hlast := ht.trimmed.2
    rw [List.getLast?_append_of_ne_nil _ hback] at hlast
    rw [nonEmpty?]
    split
    · exact (Option.some_ne_none _).symm
    · exact fun heq => strip_ne hx hback hlast (Option.some.inj heq)

end Named

/-- **A note is kept as it was said exactly if no delimiter stands in it**, that is, no comma
and no joining word between blanks. -/
theorem note_kept_iff (limits : Limits) (hamount : Spells amount n) (hone : 1 ≤ n)
    (hle : n ≤ limits.quantity) (hname : PlainName limits name)
    (hunit : ∀ w ∈ (Text.words name).head?, w ∉ unitWords) (ht : NoteText t) :
    (compile limits ("add " ++ amount ++ " " ++ name ++ " (" ++ t ++ ")")).add =
      [⟨name, n, some t⟩] ↔ ¬ Delimited t := by
  have hquantity := quantity?_of_spells hamount hone hle
  have hpart := unbroken_of_quantity? hquantity
  have hform : normalize (amount ++ ' ' :: (name ++ ' ' :: inParentheses t)) =
      amount ++ ' ' :: (name ++ ' ' :: inParentheses t) :=
    normalize_spaced hpart.normalize
      (normalize_spaced hname.normalize ht.normalize_inParentheses hname.ne_nil
        (List.cons_ne_nil _ _)) hpart.ne_nil (by simp)
  have hadd : (compile limits ("add " ++ amount ++ " " ++ name ++ " (" ++ t ++ ")")).add =
      (segments (amount ++ ' ' :: (name ++ ' ' :: inParentheses t))).flatMap
        (addEntries limits) := by
    have hsaid : "add " ++ amount ++ " " ++ name ++ " (" ++ t ++ ")" =
        "add " ++ (amount ++ ' ' :: (name ++ ' ' :: inParentheses t)) := by
      simp [inParentheses]
    rw [hsaid, compile_add, hform]
    rfl
  rw [hadd]
  constructor
  · intro h hdelimited
    obtain ⟨note, others, hread, hne⟩ :=
      exists_flatMap_of_delimited hquantity hname hunit ht hdelimited
    rw [hread] at h
    exact hne (congrArg AddEntry.note (List.cons.inj h).1)
  · intro h
    have hwhole := hpart.append_space (hname.unbroken.append_space (ht.unbroken_inParentheses h))
    rw [hwhole.segments, List.flatMap_singleton]
    exact addEntries_inParentheses hquantity hname hunit ht

theorem note_kept_joinersAtEnds :
    Spells "2" 2 ∧ (1 : Int) ≤ 2 ∧ 2 ≤ Limits.standard.quantity ∧ PlainName .standard "milk" ∧
      (∀ w ∈ (Text.words "milk").head?, w ∉ unitWords) ∧
      NoteText "and 3 cans of the cheap one plus" ∧
      ((compile .standard ("add " ++ "2" ++ " " ++ "milk" ++ " (" ++
            "and 3 cans of the cheap one plus" ++ ")")).add =
          [⟨"milk", 2, some "and 3 cans of the cheap one plus"⟩] ↔
        ¬ Delimited "and 3 cans of the cheap one plus") :=
  (fun hamount hone hle hname hunit ht =>
      ⟨hamount, hone, hle, hname, hunit, ht,
        note_kept_iff .standard hamount hone hle hname hunit ht⟩)
    (by decide) (by decide) (by decide) (by decide +kernel) (by decide +kernel)
    (by decide +kernel)

/-- The comma ends the segment, so the note ends there too, and what comes after the comma
is added as an item of its own. -/
theorem note_lost_comma :
    PlainName .standard "milk" ∧ (∀ w ∈ (Text.words "milk").head?, w ∉ unitWords) ∧
      NoteText "skim, cold" ∧
      (compile .standard "add 2 milk (skim, cold)").add =
        [⟨"milk", 2, some "skim"⟩, ⟨"cold)", 1, none⟩] ∧
      (compile .standard "add 2 milk (skim, cold)").add ≠ [⟨"milk", 2, some "skim, cold"⟩] := by
  decide +kernel

end SpokenList.Utterance
