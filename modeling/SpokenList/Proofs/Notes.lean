import SpokenList.Proofs.Enumerations
import SpokenList.Proofs.Groups

/-! # Notes in parentheses

A text in parentheses is one part of an enumeration if no delimiter stands in it
(`unbroken_inParentheses`).  In a segment all its words are kept, whatever they say,
up to the one that closes the parentheses (`groupsFrom_inParentheses`); and from the
words that were kept the text is taken out again (`takeNote_append`).
-/
namespace SpokenList.Utterance

open Text (isBlank)

variable {limits : Limits} {s t w : Text} {tokens rest : List Text} {r : Reading}

/-- The text in parentheses. -/
def inParentheses (t : Text) : Text := '(' :: (t ++ [')'])

/-- What can be said in parentheses: a text in normal form that is not empty and has no
parentheses itself. -/
structure NoteText (t : Text) : Prop where
  ne_nil : t ≠ []
  normalize : normalize t = t
  noOpening : '(' ∉ t
  noClosing : ')' ∉ t

instance : Decidable (NoteText t) :=
  decidable_of_iff (t ≠ [] ∧ Utterance.normalize t = t ∧ '(' ∉ t ∧ ')' ∉ t)
    ⟨fun ⟨hne, hform, hopening, hclosing⟩ => ⟨hne, hform, hopening, hclosing⟩,
      fun ⟨hne, hform, hopening, hclosing⟩ => ⟨hne, hform, hopening, hclosing⟩⟩

/-- The parenthesis that opens a text is part of its first word. -/
theorem words_opening (t : Text) :
    ∃ w others, Text.words ('(' :: t) = ('(' :: w) :: others :=
  Text.exists_fields_cons (by decide) t

theorem isBlank_closing : ∀ c ∈ [')'], isBlank c = false :=
  List.forall_mem_singleton.mpr (by decide)

namespace NoteText

theorem trimmed (ht : NoteText t) : Text.Trimmed isBlank t := by
  rw [← ht.normalize]
  exact trimmed_normalize t

theorem getLast? (ht : NoteText t) : ∀ c ∈ ('(' :: t).getLast?, isBlank c = false := by
  rw [List.getLast?_cons_of_ne_nil ht.ne_nil]
  exact ht.trimmed.2

theorem collapse_inParentheses (ht : NoteText t) :
    Text.collapse (inParentheses t) = inParentheses t := by
  have hcollapse : Text.collapse t = t := by rw [← ht.normalize, collapse_normalize]
  have hopening : Text.collapse ('(' :: t) = '(' :: t := Text.collapse_cons (by decide) hcollapse
  have happend := Text.collapse_append ht.getLast? isBlank_closing
  rwa [hopening] at happend

theorem normalize_inParentheses (ht : NoteText t) :
    Utterance.normalize (inParentheses t) = inParentheses t := by
  rw [Utterance.normalize, ht.collapse_inParentheses]
  refine Text.lowerFrom_of_lowered fun c hc => ?_
  rcases List.mem_cons.mp hc with rfl | hc
  · show Text.Lowered '('
    decide +kernel
  · rcases List.mem_append.mp hc with hc | hc
    · rw [← ht.normalize] at hc
      exact lowered_of_mem_normalize hc
    · rw [List.mem_singleton.mp hc]
      show Text.Lowered ')'
      decide +kernel

/-- The parentheses are part of the first word and of the last one. -/
theorem words_inParentheses (ht : NoteText t) :
    ∃ before last, Text.words ('(' :: t) = before ++ [last] ∧
      Text.words (inParentheses t) = before ++ [last ++ [')']] :=
  Text.exists_fields_append (List.cons_ne_nil _ t) ht.getLast? isBlank_closing

/-- Only the last word closes the parentheses. -/
theorem closing_notMem (ht : NoteText t) :
    ∀ w ∈ (Text.words (inParentheses t)).dropLast, ')' ∉ w := by
  obtain ⟨before, last, hopening, hwords⟩ := ht.words_inParentheses
  rw [hwords, List.dropLast_concat]
  intro w hw hmem
  have hword : w ∈ Text.words ('(' :: t) := by
    rw [hopening]
    exact List.mem_append_left _ hw
  have hin : ')' ∈ '(' :: t := (Text.mem_fields hword).2 _ hmem
  exact ht.noClosing (by simpa using hin)

/-- A joining word among the words of the parentheses stands between two of them. -/
theorem delimited_of_mem_words (ht : NoteText t) (hw : w ∈ Text.words (inParentheses t))
    (hjoiner : w ∈ joiningWords) : Delimited t := by
  have hplain : ∀ w ∈ joiningWords, '(' ∉ w ∧ ')' ∉ w := by decide
  obtain ⟨before, after, hwords⟩ := List.append_of_mem hw
  have hbefore : before ≠ [] := by
    rintro rfl
    obtain ⟨v, others, hfirst⟩ := words_opening (t ++ [')'])
    obtain ⟨rfl, -⟩ := List.cons.inj (hwords.symm.trans hfirst)
    exact (hplain _ hjoiner).1 (by simp)
  have hafter : after ≠ [] := by
    rintro rfl
    obtain ⟨front, last, -, hlast⟩ := ht.words_inParentheses
    obtain ⟨-, heq⟩ := List.append_inj' (hwords.symm.trans hlast) rfl
    obtain ⟨rfl, -⟩ := List.cons.inj heq
    exact (hplain _ hjoiner).2 (by simp)
  have hsplit : inParentheses t =
      Text.join [' '] before ++ ' ' :: (w ++ ' ' :: Text.join [' '] after) := by
    rw [← Text.join_cons w hafter, ← Text.join_append hbefore (List.cons_ne_nil w after), ← hwords]
    exact ht.collapse_inParentheses.symm
  have hinfix : (' ' :: (w ++ [' '])) <:+: inParentheses t :=
    ⟨Text.join [' '] before, Text.join [' '] after, by simp [hsplit]⟩
  -- the blanks are no parentheses, so what stands between them is said inside
  refine Or.inr ⟨w, hjoiner, ' ', ' ', by decide, by decide, ?_⟩
  rcases List.infix_cons_iff.mp hinfix with hfirst | hinside
  · exact absurd (List.cons_prefix_cons.mp hfirst).1 (by decide)
  · rcases List.infix_concat_iff.mp hinside with hlast | hinside
    · obtain ⟨front, heq⟩ := hlast
      rw [← List.cons_append, ← List.append_assoc] at heq
      exact absurd (List.append_inj' heq rfl).2 (by decide)
    · exact hinside

/-- A text in parentheses is one part, if no delimiter stands in it. -/
theorem unbroken_inParentheses (ht : NoteText t) (h : ¬ Delimited t) :
    Unbroken (inParentheses t) where
  ne_nil := List.cons_ne_nil _ _
  normalize := ht.normalize_inParentheses
  noComma := by
    have hcomma : ',' ∉ t := fun hmem => h (Or.inl hmem)
    simp [inParentheses, hcomma]
  noJoiner w hw hjoiner := h (ht.delimited_of_mem_words hw hjoiner)

end NoteText

/-! ## Keeping the words -/

theorem groupsFrom_cons_noted (h : 0 < r.depth ∨ '(' ∈ w) :
    groupsFrom limits r (w :: rest) = groupsFrom limits (r.keepNoted w) rest := by
  rw [groupsFrom, if_pos (by simpa using h)]

/-- **Every word of a note is kept**, and the parentheses in it are counted; only the last
word may close any. -/
theorem groupsFrom_noted (limits : Limits) (rest : List Text) (htokens : tokens ≠ [])
    (hopen : 0 < r.depth ∨ ∀ w ∈ tokens.head?, '(' ∈ w) (hclose : ∀ w ∈ tokens.dropLast, ')' ∉ w) :
    groupsFrom limits r (tokens ++ rest) =
      groupsFrom limits ⟨r.quantity, r.words ++ tokens, false,
        r.depth + tokens.flatten.count '(' - tokens.flatten.count ')'⟩ rest := by
  induction tokens generalizing r with
  | nil => exact absurd rfl htokens
  | cons w others ih =>
    have hword : 0 < r.depth ∨ '(' ∈ w := hopen.imp_right fun h => h w rfl
    rw [List.cons_append, groupsFrom_cons_noted hword]
    by_cases hothers : others = []
    · subst hothers
      simp [Reading.keepNoted, Reading.keep]
    · rw [List.dropLast_cons_of_ne_nil hothers] at hclose
      have hnone : w.count ')' = 0 := List.count_eq_zero.mpr (hclose w (by simp))
      have hpos : 0 < r.depth + w.count '(' := by
        rcases hword with h | h
        · omega
        · exact Nat.add_pos_right _ (List.count_pos_iff.mpr h)
      have hdepth : 0 < (r.keepNoted w).depth := by
        show 0 < r.depth + w.count '(' - w.count ')'
        omega
      rw [ih hothers (Or.inl hdepth) fun v hv => hclose v (List.mem_cons_of_mem w hv)]
      simp only [Reading.keepNoted, Reading.keep, hnone, List.append_assoc, List.singleton_append,
        List.flatten_cons, List.count_append]
      congr 2
      omega

theorem count_flatten_words {c : Char} (hc : isBlank c = false) (t : Text) :
    (Text.words t).flatten.count c = t.count c := by
  rw [Text.words_eq_fields, Text.flatten_fields, List.count_filter (by simp [hc])]

/-- The words of a text in parentheses are kept, and after them all parentheses are closed. -/
theorem groupsFrom_inParentheses (limits : Limits) (rest : List Text) (ht : NoteText t)
    (hr : r.depth = 0) :
    groupsFrom limits r (Text.words (inParentheses t) ++ rest) =
      groupsFrom limits ⟨r.quantity, r.words ++ Text.words (inParentheses t), false, 0⟩ rest := by
  obtain ⟨v, others, hfirst⟩ := words_opening (t ++ [')'])
  rw [← inParentheses] at hfirst
  have hdepth : (inParentheses t).count '(' - (inParentheses t).count ')' = 0 := by
    have hnone : t.count '(' = 0 := List.count_eq_zero.mpr ht.noOpening
    simp [inParentheses, hnone]
  rw [groupsFrom_noted limits rest (by simp [hfirst]) (Or.inr (by simp [hfirst]))
    ht.closing_notMem, count_flatten_words (by decide), count_flatten_words (by decide), hr,
    Nat.zero_add, hdepth]

/-! ## Taking the note out -/

theorem takeNote_of_notMem (h : '(' ∉ t) : takeNote t = ⟨Text.strip t, none⟩ := by
  have hdrop : t.dropWhile (· != '(') = [] :=
    List.dropWhile_eq_nil_iff.mpr fun c hc => bne_iff_ne.mpr fun heq => h (heq ▸ hc)
  rw [takeNote, hdrop]

/-- The note starts after the first parenthesis that is opened. -/
theorem takeNote_append (hs : '(' ∉ s) (t : Text) :
    takeNote (s ++ '(' :: t) =
      ⟨Text.strip (s ++ ' ' :: (t.dropWhile (· != ')')).drop 1),
        nonEmpty? (Text.strip (t.takeWhile (· != ')')))⟩ := by
  have hall : ∀ c ∈ s, (c != '(') = true := fun c hc => bne_iff_ne.mpr fun heq => hs (heq ▸ hc)
  have hdrop : (s ++ '(' :: t).dropWhile (· != '(') = '(' :: t := by
    rw [List.dropWhile_append_of_pos hall, List.dropWhile_cons_of_neg (by simp)]
  have htake : (s ++ '(' :: t).takeWhile (· != '(') = s := by
    rw [List.takeWhile_append_of_pos hall, List.takeWhile_cons_of_neg (by simp), List.append_nil]
  rw [takeNote, hdrop, htake]

end SpokenList.Utterance
