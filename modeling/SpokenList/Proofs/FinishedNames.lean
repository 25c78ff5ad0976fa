import SpokenList.Proofs.ItemNames

/-! # Finished names

A word stands whole in a text if a word boundary lies before it and one after it
(`StandsWhole`).  For a word of word characters this is to be one of the maximal runs of
word characters (`standsWhole_iff`), so leaving stop words out, which takes them from these
runs, leaves none that stands whole.

A name is `Finished` if neither "of" nor "some" stands whole in it, its only blanks are single
spaces between words, and no punctuation is at its ends.  These are the texts that are their own
names (`itemName_eq_self_iff`), and every name that is made is one of them
(`itemName_settled`): making it once is enough.
-/
namespace SpokenList.Utterance

open Text (IsField isBlank isWordChar startsWord SingleSpaced Trimmed)

variable {c : Char} {s t u w : Text}

/-! ## Word boundaries -/

/-- The text ends with a word character. -/
def endsInWord (t : Text) : Bool := t.getLast?.any isWordChar

/-- Between the two parts of a text, exactly one of the neighbours is a word character. -/
def IsBoundary (before after : Text) : Prop := endsInWord before ≠ startsWord after

/-- The word is in the text, between word boundaries. -/
def StandsWhole (w t : Text) : Prop :=
  ∃ before after, t = before ++ w ++ after ∧ IsBoundary before (w ++ after) ∧
    IsBoundary (before ++ w) after

theorem endsInWord_eq_false_iff : endsInWord s = false ↔ ∀ c ∈ s.getLast?, parts c = true := by
  cases h : s.getLast? <;> simp [endsInWord, parts, h]

theorem startsWord_eq_false_iff : startsWord t = false ↔ ∀ c ∈ t.head?, parts c = true :=
  ⟨parts_of_not_startsWord, startsWord_eq_false⟩

/-- Before a word a boundary lies where no word ends. -/
theorem isBoundary_append_iff (hw : IsField parts w) :
    IsBoundary s (w ++ u) ↔ ∀ c ∈ s.getLast?, parts c = true := by
  obtain ⟨c, rest, rfl⟩ := List.exists_cons_of_ne_nil hw.1
  have hstarts : startsWord (c :: rest ++ u) = true := isWordChar_of_mem hw (List.mem_cons_self ..)
  rw [IsBoundary, hstarts, ne_eq, Bool.not_eq_true, endsInWord_eq_false_iff]

/-- After a word a boundary lies where no word starts. -/
theorem append_isBoundary_iff (hw : IsField parts w) :
    IsBoundary (s ++ w) u ↔ ∀ c ∈ u.head?, parts c = true := by
  have hends : endsInWord (s ++ w) = true := by
    rw [endsInWord, List.getLast?_append_of_ne_nil _ hw.1, List.getLast?_eq_some_getLast hw.1]
    exact isWordChar_of_mem hw (List.getLast_mem hw.1)
  rw [IsBoundary, hends, ne_comm, ne_eq, Bool.not_eq_true, startsWord_eq_false_iff]

/-- **A word stands whole** where it is a maximal run of word characters. -/
theorem standsWhole_iff (hw : IsField parts w) : StandsWhole w t ↔ w ∈ wholeWords t := by
  constructor
  · rintro ⟨before, after, rfl, hbefore, hafter⟩
    rw [isBoundary_append_iff hw] at hbefore
    rw [append_isBoundary_iff hw] at hafter
    rw [List.append_assoc, wholeWords, Text.fields_append_of_last hbefore, hw.fields_append hafter]
    simp
  · intro h
    induction t using Text.fields_induction parts with
    | nil => cases h
    | separator c t hc ih =>
      rw [wholeWords, Text.fields_cons hc] at h
      obtain ⟨before, after, rfl, hbefore, hafter⟩ := ih h
      refine ⟨c :: before, after, rfl, (isBoundary_append_iff hw).mpr fun d hd => ?_,
        (append_isBoundary_iff hw).mpr ((append_isBoundary_iff hw).mp hafter)⟩
      by_cases hnil : before = []
      · subst hnil
        rwa [← Option.some.inj hd]
      · rw [List.getLast?_cons_of_ne_nil hnil] at hd
        exact (isBoundary_append_iff hw).mp hbefore d hd
    | field v t hv ht ih =>
      rw [wholeWords, hv.fields_append ht] at h
      rcases List.mem_cons.mp h with rfl | h
      · refine ⟨[], t, rfl, (isBoundary_append_iff hw).mpr fun d hd => ?_,
          (append_isBoundary_iff hw).mpr ht⟩
        cases hd
      · obtain ⟨before, after, rfl, hbefore, hafter⟩ := ih h
        -- the text goes on with no word character, so the word is not at its start
        have hne : before ≠ [] := by
          rintro rfl
          obtain ⟨d, rest, rfl⟩ := List.exists_cons_of_ne_nil hw.1
          have hd := ht d rfl
          rw [hw.2 d (List.mem_cons_self ..)] at hd
          cases hd
        refine ⟨v ++ before, after, by simp only [List.append_assoc], ?_,
          (append_isBoundary_iff hw).mpr ((append_isBoundary_iff hw).mp hafter)⟩
        rw [isBoundary_append_iff hw, List.getLast?_append_of_ne_nil _ hne]
        exact (isBoundary_append_iff hw).mp hbefore

/-! ## Names -/

/-- A name that nothing has to be taken from. -/
structure Finished (name : Text) : Prop where
  noStopWord : ¬ StandsWhole "of" name ∧ ¬ StandsWhole "some" name
  singleSpaced : SingleSpaced name
  trimmed : Trimmed isBlank name
  noPunctuation : ∀ c ∈ ['.', ',', '!', '?', ';', ':'], name.head? ≠ some c ∧ name.getLast? ≠ some c

theorem mem_stopWords : w ∈ stopWords ↔ w = "of" ∨ w = "some" := by simp [stopWords]

/-- Where no blank is at the ends of a name, only punctuation can be taken from them. -/
theorem trimmed_edgePunctuation_iff (h : Trimmed isBlank t) :
    Trimmed edgePunctuation.contains t ↔
      ∀ c ∈ ['.', ',', '!', '?', ';', ':'], t.head? ≠ some c ∧ t.getLast? ≠ some c := by
  have hedge (c : Char) : edgePunctuation.contains c = true ↔
      c = ' ' ∨ c ∈ ['.', ',', '!', '?', ';', ':'] := by
    rw [List.contains_iff_mem]
    exact List.mem_cons
  constructor
  · rintro ⟨hhead, hlast⟩ c hc
    have hcut := (hedge c).mpr (Or.inr hc)
    exact ⟨fun h => Bool.false_ne_true ((hhead c h).symm.trans hcut),
      fun h => Bool.false_ne_true ((hlast c h).symm.trans hcut)⟩
  · intro hends
    have hkept {c : Char} (hblank : isBlank c = false)
        (hc : c ∉ ['.', ',', '!', '?', ';', ':']) : edgePunctuation.contains c = false := by
      rw [← Bool.not_eq_true, hedge]
      rintro (rfl | hmem)
      · cases hblank
      · exact hc hmem
    exact ⟨fun c hc => hkept (h.1 c hc) fun hmem => (hends c hmem).1 hc,
      fun c hc => hkept (h.2 c hc) fun hmem => (hends c hmem).2 hc⟩

theorem finished_itemName (t : Text) : Finished (itemName t) := by
  obtain ⟨hspaced, htrimmed⟩ := Text.collapse_eq_self_iff.mp (collapse_itemName t)
  have hnone {w : Text} (hw : w ∈ stopWords) : ¬ StandsWhole w (itemName t) := by
    rw [standsWhole_iff (isField_of_mem_stopWords hw), wholeWords_itemName]
    simp [hw]
  exact ⟨⟨hnone (mem_stopWords.mpr (Or.inl rfl)), hnone (mem_stopWords.mpr (Or.inr rfl))⟩, hspaced,
    htrimmed, (trimmed_edgePunctuation_iff htrimmed).mp (Text.trimmed_trim _ _)⟩

/-- **The finished names are the texts that are their own names.** -/
theorem itemName_eq_self_iff : itemName t = t ↔ Finished t := by
  constructor
  · intro h
    rw [← h]
    exact finished_itemName t
  · intro h
    have hkept : withoutStopWords t = t := by
      refine withoutStopWords_eq_self fun w hw hstop => ?_
      have hwhole := (standsWhole_iff (isField_of_mem_stopWords hstop)).mpr hw
      rcases mem_stopWords.mp hstop with rfl | rfl
      · exact h.noStopWord.1 hwhole
      · exact h.noStopWord.2 hwhole
    rw [itemName, hkept, Text.collapse_eq_self_iff.mpr ⟨h.singleSpaced, h.trimmed⟩,
      Text.trim_eq_self_iff.mpr ((trimmed_edgePunctuation_iff h.trimmed).mpr h.noPunctuation)]

/-- **One pass makes a name.**  What is made of a text is finished and is its own name; and of
the whole words of the text only stop words were taken. -/
theorem itemName_settled (t : Text) :
    Finished (itemName t) ∧ itemName (itemName t) = itemName t ∧
      wholeWords (itemName t) = (wholeWords t).filter fun w => w ∉ stopWords :=
  ⟨finished_itemName t, itemName_eq_self_iff.mpr (finished_itemName t), wholeWords_itemName t⟩

/-- Stop words in a row go together, and one that a letter or a mark stands next to is
judged by whether that is a word character. -/
example : itemName "some of OF of'some, offal (of) some_ some" = "OF ', offal () some_" := by
  decide +kernel

end SpokenList.Utterance
