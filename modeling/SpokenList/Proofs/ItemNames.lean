import SpokenList.Proofs.Words
import SpokenList.Utterance.ItemName

/-! # Names in normal form

A stop word counts as a whole word, between word boundaries, so what matters of a
text is its runs of word characters (`Utterance.wholeWords`).  Read from run to
run, `withoutStopWords` has three equations: it keeps what is no word character,
it keeps a run that is no stop word, and it passes over one that is, with the
blanks after it.

So it takes the stop words out of the runs and changes nothing else about them
(`wholeWords_withoutStopWords`), and neither collapsing blanks nor trimming
punctuation brings one back.  Hence a name that has been made is made of itself
again (`itemName_itemName`).
-/
namespace SpokenList

/-- No code point of the ranges is in the others, if none of each range is. -/
theorem Ranges.has_eq_false_of_has {rs others : Ranges} {n : Nat}
    (h : ∀ r ∈ rs, ∀ k ∈ List.range (r.2 + 1 - r.1), others.has (r.1 + k) = false)
    (hn : rs.has n = true) : others.has n = false := by
  obtain ⟨r, hr, hlo, hhi⟩ := mem_of_has hn
  have hmem : n - r.1 ∈ List.range (r.2 + 1 - r.1) := List.mem_range.mpr (by omega)
  have hapart := h r hr _ hmem
  rwa [Nat.add_sub_cancel' hlo] at hapart

/-- Blanks are no word characters. -/
theorem Text.isWordChar_of_isBlank {c : Char} (h : isBlank c = true) : isWordChar c = false := by
  have hlow : c ≠ '_' := by
    rintro rfl
    exact absurd h (by decide)
  have hclass : alphanumericRanges.has c.toNat = false := by
    rcases Bool.or_eq_true _ _ |>.mp h with h | h
    · exact Ranges.has_eq_false_of_has (by decide +kernel) h
    · have hseparator : Ranges.has [(0x1C, 0x1F)] c.toNat = true := by
        simp only [Bool.and_eq_true, decide_eq_true_eq] at h
        simp [Ranges.has, h.2, Nat.not_lt.mpr h.1]
      exact Ranges.has_eq_false_of_has (by decide +kernel) hseparator
  rw [isWordChar, hclass, Bool.or_false]
  exact beq_false_of_ne hlow

namespace Utterance

open Text (IsField fields isWordChar isBlank)

variable {b : Bool} {c : Char} {s t w v rest : Text}

/-! ## Whole words -/

/-- The character is no word character, so a word ends before it and may start
after it. -/
def parts (c : Char) : Bool := !isWordChar c

/-- The maximal runs of word characters. -/
def wholeWords (t : Text) : List Text := fields parts t

theorem parts_of_isBlank (h : isBlank c = true) : parts c = true := by
  rw [parts, Text.isWordChar_of_isBlank h]
  rfl

theorem startsWord_eq_false (h : ∀ c ∈ t.head?, parts c = true) : Text.startsWord t = false := by
  cases t with
  | nil => rfl
  | cons c rest =>
    show isWordChar c = false
    simpa [parts] using h c rfl

theorem parts_of_not_startsWord (h : Text.startsWord t = false) : ∀ c ∈ t.head?, parts c = true := by
  intro c hc
  obtain ⟨rest, rfl⟩ := List.head?_eq_some_iff.mp hc
  have hnot : isWordChar c = false := h
  rw [parts, hnot]
  rfl

theorem isWordChar_of_mem (hw : IsField parts w) (hc : c ∈ w) : isWordChar c = true := by
  simpa [parts] using hw.2 c hc

/-! ## Stop words at the start of a text -/

theorem isField_of_mem_stopWords (h : w ∈ stopWords) : IsField parts w := by
  have hall : ∀ w ∈ stopWords, w ≠ [] ∧ w.all isWordChar = true := by decide +kernel
  refine ⟨(hall w h).1, fun c hc => ?_⟩
  rw [parts, List.all_eq_true.mp (hall w h).2 c hc]
  rfl

/-- No stop word stands where no word starts. -/
theorem stopWordLength?_of_parts (hc : parts c = true) (t : Text) :
    stopWordLength? (c :: t) = none := by
  refine List.findSome?_eq_none_iff.mpr fun w hw => ?_
  have hfield := isField_of_mem_stopWords hw
  obtain ⟨d, others, rfl⟩ := List.exists_cons_of_ne_nil hfield.1
  have hne : (d == c) = false := by
    refine beq_false_of_ne ?_
    rintro rfl
    exact absurd (hfield.2 d (by simp)) (by rw [hc]; decide)
  simp [Text.after?, List.isPrefixOf?, hne]

/-- Only the whole word at the start of a text can be read there. -/
theorem after?_append (hv : IsField parts v) (hw : IsField parts w)
    (ht : ∀ c ∈ t.head?, parts c = true) :
    (Text.after? v (w ++ t)).filter (!Text.startsWord ·) = if v = w then some t else none := by
  split
  · rename_i hvw
    rw [Text.after?_eq_some_iff.mpr (by rw [hvw]), Option.filter_some, startsWord_eq_false ht]
    rfl
  · rename_i hvw
    rw [Option.filter_eq_none_iff]
    intro s hs
    cases hstarts : Text.startsWord s with
    | true => decide
    | false =>
      have hsame := hv.append_inj hw (parts_of_not_startsWord hstarts) ht
        (Text.after?_eq_some_iff.mp hs)
      exact absurd hsame.1 hvw

/-- A whole word at the start of a text is a stop word, or none is there. -/
theorem stopWordLength?_append (hw : IsField parts w) (ht : ∀ c ∈ t.head?, parts c = true) :
    stopWordLength? (w ++ t) =
      if w ∈ stopWords then some (w.length + (t.takeWhile isBlank).length) else none := by
  have hread (words : List Text) (hwords : ∀ v ∈ words, IsField parts v) :
      words.findSome? (fun v => ((Text.after? v (w ++ t)).filter (!Text.startsWord ·)).map
        fun rest => v.length + (rest.takeWhile isBlank).length) =
      if w ∈ words then some (w.length + (t.takeWhile isBlank).length) else none := by
    induction words with
    | nil => rfl
    | cons v rest ih =>
      rw [List.findSome?_cons, after?_append (hwords v (by simp)) hw ht,
        ih fun u hu => hwords u (List.mem_cons_of_mem v hu)]
      by_cases hvw : v = w
      · simp [hvw]
      · have hwv : w ≠ v := fun h => hvw h.symm
        simp [hvw, hwv]
  -- asking for no word character to follow is a filter on what is read
  rw [← hread stopWords fun _ => isField_of_mem_stopWords, stopWordLength?]
  congr 1
  funext v
  cases Text.after? v (w ++ t) with
  | none => rfl
  | some rest =>
    show (if Text.startsWord rest then none else some _) = _
    rw [Option.filter_some]
    cases Text.startsWord rest <;> rfl

/-! ## Leaving stop words out -/

/-- Where no word starts, it does not matter what was before. -/
theorem withoutStopWordsFrom_eq (ht : ∀ c ∈ t.head?, parts c = true) (b : Bool) :
    withoutStopWordsFrom b 0 t = withoutStopWords t := by
  cases t with
  | nil => rfl
  | cons c rest =>
    have hnone := stopWordLength?_of_parts (ht c rfl) rest
    cases b <;> simp [withoutStopWords, withoutStopWordsFrom, hnone]

/-- What is no word character is kept. -/
theorem withoutStopWords_cons (hc : parts c = true) (t : Text) :
    withoutStopWords (c :: t) = c :: withoutStopWords t := by
  have hnot : isWordChar c = false := by simpa [parts] using hc
  simp only [withoutStopWords, withoutStopWordsFrom, stopWordLength?_of_parts hc, hnot]
  rfl

theorem withoutStopWords_append_parts (hs : ∀ c ∈ s, parts c = true) (t : Text) :
    withoutStopWords (s ++ t) = s ++ withoutStopWords t := by
  induction s with
  | nil => rfl
  | cons c rest ih =>
    rw [List.cons_append, withoutStopWords_cons (hs c (by simp)), ih fun d hd => hs d (by simp [hd])]
    rfl

/-- Inside a word everything is kept. -/
theorem withoutStopWordsFrom_append (hw : ∀ c ∈ w, isWordChar c = true) (t : Text) :
    withoutStopWordsFrom true 0 (w ++ t) = w ++ withoutStopWordsFrom true 0 t := by
  induction w with
  | nil => rfl
  | cons c rest ih =>
    rw [List.cons_append, withoutStopWordsFrom]
    simp only [if_true]
    rw [hw c (by simp), ih fun d hd => hw d (by simp [hd])]
    rfl

/-- What follows a part that is skipped is read as a text of its own, unless a word
goes on there. -/
theorem withoutStopWordsFrom_skip
    (h : ∀ c ∈ t.head?, isWordChar c = true → ∃ d ∈ s.getLast?, parts d = true) (b : Bool) :
    withoutStopWordsFrom b s.length (s ++ t) = withoutStopWords t := by
  induction s generalizing b with
  | nil =>
    refine withoutStopWordsFrom_eq (fun c hc => ?_) b
    cases hword : isWordChar c with
    | false => rw [parts, hword]; rfl
    | true =>
      obtain ⟨d, hd, _⟩ := h c hc hword
      cases hd
  | cons c rest ih =>
    rw [List.length_cons, List.cons_append, withoutStopWordsFrom]
    cases rest with
    | nil =>
      -- only the last character that is skipped can be part of a word that goes on
      cases hword : isWordChar c with
      | false => rfl
      | true =>
        refine withoutStopWordsFrom_eq (fun d hd => ?_) true
        cases hnext : isWordChar d with
        | false => rw [parts, hnext]; rfl
        | true =>
          obtain ⟨e, he, hparts⟩ := h d hd hnext
          obtain rfl : c = e := Option.some.inj he
          rw [parts, hword] at hparts
          cases hparts
    | cons d others =>
      exact ih (fun e he hword => by simpa using h e he hword) _

/-- A whole word that is no stop word is kept. -/
theorem withoutStopWords_append_word (hw : IsField parts w) (ht : ∀ c ∈ t.head?, parts c = true)
    (hkeep : w ∉ stopWords) : withoutStopWords (w ++ t) = w ++ withoutStopWords t := by
  have hnone : stopWordLength? (w ++ t) = none := by rw [stopWordLength?_append hw ht, if_neg hkeep]
  obtain ⟨c, rest, rfl⟩ := List.exists_cons_of_ne_nil hw.1
  obtain ⟨hc, hrest⟩ := List.forall_mem_cons.mp fun d => isWordChar_of_mem (c := d) hw
  rw [withoutStopWords, List.cons_append, withoutStopWordsFrom]
  rw [List.cons_append] at hnone
  simp only [hnone, hc, Bool.false_eq_true, if_false]
  rw [withoutStopWordsFrom_append hrest, withoutStopWordsFrom_eq ht]
  rfl

/-- A stop word is passed over, with the blanks after it. -/
theorem withoutStopWords_append_stopWord (hw : w ∈ stopWords)
    (ht : ∀ c ∈ t.head?, parts c = true) :
    withoutStopWords (w ++ t) = withoutStopWords (Text.dropBlanks t) := by
  have hfield := isField_of_mem_stopWords hw
  have hsome : stopWordLength? (w ++ t) = some (w.length + (t.takeWhile isBlank).length) := by
    rw [stopWordLength?_append hfield ht, if_pos hw]
  obtain ⟨c, rest, rfl⟩ := List.exists_cons_of_ne_nil hfield.1
  have hsplit : rest ++ t = (rest ++ t.takeWhile isBlank) ++ Text.dropBlanks t := by
    rw [List.append_assoc, Text.dropBlanks, List.takeWhile_append_dropWhile]
  have hlength : (c :: rest).length + (t.takeWhile isBlank).length - 1 =
      (rest ++ t.takeWhile isBlank).length := by
    rw [List.length_cons, List.length_append]
    omega
  rw [withoutStopWords, List.cons_append, withoutStopWordsFrom]
  rw [List.cons_append] at hsome
  simp only [hsome, Bool.false_eq_true, if_false]
  rw [hlength, hsplit]
  refine withoutStopWordsFrom_skip (fun d hd hword => ?_) _
  -- a word goes on after blanks only, since a boundary follows the stop word
  cases hblanks : t.takeWhile isBlank with
  | nil =>
    have hsame : Text.dropBlanks t = t := by
      have ht' : t.takeWhile isBlank ++ t.dropWhile isBlank = t := List.takeWhile_append_dropWhile
      rwa [hblanks] at ht'
    rw [hsame] at hd
    have hparts := ht d hd
    rw [parts, hword] at hparts
    cases hparts
  | cons e others =>
    rw [List.getLast?_append_of_ne_nil _ (List.cons_ne_nil e others),
      List.getLast?_eq_some_getLast (List.cons_ne_nil e others)]
    have hmem : (e :: others).getLast (List.cons_ne_nil e others) ∈ t.takeWhile isBlank := by
      rw [hblanks]
      exact List.getLast_mem _
    exact ⟨_, rfl, parts_of_isBlank (List.mem_takeWhile_imp hmem)⟩

theorem parts_head?_withoutStopWords (ht : ∀ c ∈ t.head?, parts c = true) :
    ∀ c ∈ (withoutStopWords t).head?, parts c = true := by
  cases t with
  | nil => exact nofun
  | cons c rest =>
    rw [withoutStopWords_cons (ht c rfl)]
    exact ht

/-- **Leaving stop words out takes them out of the whole words**, and leaves the
others as they are. -/
theorem wholeWords_withoutStopWords (t : Text) :
    wholeWords (withoutStopWords t) = (wholeWords t).filter fun w => w ∉ stopWords := by
  induction t using Text.fields_induction parts with
  | nil => rfl
  | separator c t hc ih =>
    rw [withoutStopWords_cons hc, wholeWords, Text.fields_cons hc, ← wholeWords, ih, wholeWords,
      wholeWords, Text.fields_cons hc]
  | field w t hw ht ih =>
    have hwhole : wholeWords (w ++ t) = w :: wholeWords t := hw.fields_append ht
    rw [hwhole]
    by_cases hstop : w ∈ stopWords
    · have hblanks : ∀ c ∈ t.takeWhile isBlank, parts c = true := fun c hc =>
        parts_of_isBlank (List.mem_takeWhile_imp hc)
      have hread : withoutStopWords t = t.takeWhile isBlank ++ withoutStopWords (Text.dropBlanks t) := by
        rw [← withoutStopWords_append_parts hblanks, Text.dropBlanks,
          List.takeWhile_append_dropWhile]
      -- the blanks after the stop word go as well, but they are part of no word
      rw [withoutStopWords_append_stopWord hstop ht, List.filter_cons_of_neg (by simp [hstop]), ← ih,
        hread, wholeWords, wholeWords, Text.fields_append_of_separators hblanks]
    · rw [withoutStopWords_append_word hw ht hstop, List.filter_cons_of_pos (by simp [hstop]), ← ih]
      exact hw.fields_append (parts_head?_withoutStopWords ht)

/-- A text without stop words stays as it is. -/
theorem withoutStopWords_eq_self (h : ∀ w ∈ wholeWords t, w ∉ stopWords) :
    withoutStopWords t = t := by
  induction t using Text.fields_induction parts with
  | nil => rfl
  | separator c t hc ih =>
    rw [wholeWords, Text.fields_cons hc] at h
    rw [withoutStopWords_cons hc, ih h]
  | field w t hw ht ih =>
    rw [wholeWords, hw.fields_append ht] at h
    rw [withoutStopWords_append_word hw ht (h w (by simp)),
      ih fun v hv => h v (List.mem_cons_of_mem w hv)]

theorem mem_of_mem_withoutStopWords (h : c ∈ withoutStopWords t) : c ∈ t := by
  have hsub (b : Bool) (skip : Nat) (t : Text) : withoutStopWordsFrom b skip t ⊆ t := by
    fun_induction withoutStopWordsFrom b skip t with
    | case1 => exact fun _ h => h
    | case2 b skip c cs ih => exact fun d hd => List.mem_cons_of_mem c (ih hd)
    | case3 b c cs n _ ih => exact fun d hd => List.mem_cons_of_mem c (ih hd)
    | case4 b c cs _ ih => exact List.cons_subset_cons c ih
  exact hsub false 0 t h

/-! ## Names -/

theorem parts_of_edgePunctuation (h : edgePunctuation.contains c = true) : parts c = true := by
  have hall : edgePunctuation.all parts = true := by decide +kernel
  exact List.all_eq_true.mp hall c (List.contains_iff_mem.mp h)

theorem wholeWords_itemName (t : Text) :
    wholeWords (itemName t) = (wholeWords t).filter fun w => w ∉ stopWords := by
  rw [itemName, wholeWords, Text.fields_trim fun _ => parts_of_edgePunctuation,
    Text.fields_collapse fun _ => parts_of_isBlank, ← wholeWords, wholeWords_withoutStopWords]

theorem mem_itemName (h : c ∈ itemName t) : c = ' ' ∨ c ∈ t := by
  rcases Text.mem_collapse (Text.mem_of_mem_trim h) with h | h
  · exact Or.inl h
  · exact Or.inr (mem_of_mem_withoutStopWords h)

/-- In a name the blanks are collapsed already. -/
theorem collapse_itemName (t : Text) : Text.collapse (itemName t) = itemName t :=
  Text.collapse_trim (by decide) (Text.collapse_collapse _)

theorem strip_itemName (t : Text) : Text.strip (itemName t) = itemName t := by
  rw [← collapse_itemName, Text.strip_collapse]

/-- **A name that has been made is made of itself again.** -/
theorem itemName_itemName (t : Text) : itemName (itemName t) = itemName t := by
  have hkept : withoutStopWords (itemName t) = itemName t := by
    refine withoutStopWords_eq_self fun w hw => ?_
    rw [wholeWords_itemName] at hw
    simpa using (List.mem_filter.mp hw).2
  have htrimmed : Text.trim edgePunctuation.contains (itemName t) = itemName t :=
    Text.trim_trim _ _
  rw [itemName, hkept, collapse_itemName, htrimmed]

end Utterance
end SpokenList
