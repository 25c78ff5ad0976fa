import SpokenList.Proofs.CanonicalSegments
import SpokenList.Proofs.Openings

/-! # Enumerations that are spelled out

Parts of an enumeration are said one after the other, with something between
neighbours (`enumerate`).  A part is `Unbroken` if it is in normal form and nothing
in it can be taken for a delimiter, not even together with what is said around it.

An enumeration of unbroken parts is in normal form (`normalize_enumerate`), and its
segments are the parts again, those that only a space stands between being one
segment (`segments_enumerate`).
-/
namespace SpokenList.Utterance

open Text (isBlank)

variable {c : Char} {s t w first : Text} {rest : List (Joiner × Text)}

theorem normalize_spaced (hs : normalize s = s) (ht : normalize t = t) (hsne : s ≠ [])
    (htne : t ≠ []) : normalize (s ++ ' ' :: t) = s ++ ' ' :: t := by
  rw [normalize_append_space (by rwa [hs]), hs, ht, afterSpace, if_neg htne]

/-! ## Parts -/

/-- A text in normal form that is not empty, with no comma and no joining word in it. -/
structure Unbroken (t : Text) : Prop where
  ne_nil : t ≠ []
  normalize : normalize t = t
  noComma : ',' ∉ t
  noJoiner : ∀ w ∈ Text.words t, w ∉ joiningWords

/-- A joining word that stands between blanks is one of the words. -/
theorem not_delimited (hcomma : ',' ∉ t) (hwords : ∀ w ∈ Text.words t, w ∉ joiningWords) :
    ¬ Delimited t := by
  rintro (hmem | ⟨w, hw, c, d, hc, hd, before, after, hsplit⟩)
  · exact hcomma hmem
  · refine hwords w ?_ hw
    have hword := (isField_of_mem_joiningWords hw).fields_append (t := d :: after)
      fun e he => by rwa [← Option.some.inj he]
    have hread : Text.words t = Text.words before ++ Text.words (w ++ d :: after) := by
      rw [← hsplit, List.append_assoc, List.cons_append, List.append_assoc, List.singleton_append,
        Text.words_append_cons hc]
    rw [hread, Text.words_eq_fields (w ++ _), hword]
    simp

namespace Unbroken

theorem collapse (h : Unbroken t) : Text.collapse t = t := by
  rw [← h.normalize, collapse_normalize]

theorem trimmed (h : Unbroken t) : Text.Trimmed isBlank t := by
  rw [← h.normalize]
  exact trimmed_normalize t

theorem append_space (hs : Unbroken s) (ht : Unbroken t) : Unbroken (s ++ ' ' :: t) where
  ne_nil := by simp
  normalize := normalize_spaced hs.normalize ht.normalize hs.ne_nil ht.ne_nil
  noComma := by simp [hs.noComma, ht.noComma]
  noJoiner := by
    rw [Text.words_append_cons (by decide)]
    exact List.forall_mem_append.mpr ⟨hs.noJoiner, ht.noJoiner⟩

/-- Unbroken parts make an unbroken whole. -/
theorem join {parts : List Text} (hne : parts ≠ []) (h : ∀ part ∈ parts, Unbroken part) :
    Unbroken (Text.join [' '] parts) := by
  induction parts with
  | nil => exact absurd rfl hne
  | cons part others ih =>
    obtain ⟨hpart, hothers⟩ := List.forall_mem_cons.mp h
    by_cases hnil : others = []
    · rwa [hnil, Text.join_singleton]
    · rw [Text.join_cons part hnil]
      exact hpart.append_space (ih hnil hothers)

theorem not_delimited (h : Unbroken t) : ¬ Delimited t :=
  Utterance.not_delimited h.noComma h.noJoiner

theorem endsApart (h : Unbroken t) : EndsApart t := by
  refine ⟨fun c hc hcomma => h.noComma (hcomma ▸ List.mem_of_mem_getLast? hc), ?_⟩
  rintro w hw c hc ⟨before, rfl⟩
  have hread : Text.words (before ++ c :: w) = Text.words before ++ [w] := by
    rw [Text.words_append_cons hc, Text.words_eq_fields w, (isField_of_mem_joiningWords hw).fields]
  exact h.noJoiner w (by rw [hread]; simp) hw

theorem isSegment (h : Unbroken t) : IsSegment t := ⟨h.ne_nil, h.trimmed, h.not_delimited⟩

/-- **A part that is said alone is one segment.** -/
theorem segments (h : Unbroken t) : segments t = [t] := segments_eq_singleton_iff.mpr h.isSegment

end Unbroken

/-! ## What stands between parts -/

/-- What is said between two parts of an enumeration. -/
inductive Joiner where
  | comma
  | and
  | plus
  | space
  deriving DecidableEq, Repr

namespace Joiner

/-- The characters between the parts. -/
def text : Joiner → Text
  | comma => ", "
  | and => " and "
  | plus => " plus "
  | space => " "

/-- What is no comma is a space, and perhaps a joining word and another space. -/
theorem text_cases (j : Joiner) : j = comma ∨ j = space ∨
    ∃ w ∈ joiningWords, j.text = ' ' :: (w ++ [' ']) := by
  cases j with
  | comma => exact Or.inl rfl
  | and => exact Or.inr (Or.inr ⟨"and", by decide, rfl⟩)
  | plus => exact Or.inr (Or.inr ⟨"plus", by decide, rfl⟩)
  | space => exact Or.inr (Or.inl rfl)

end Joiner

/-- What is in normal form stays so when it is said after a part. -/
theorem Unbroken.normalize_append (hs : Unbroken s) (j : Joiner) (ht : Utterance.normalize t = t)
    (htne : t ≠ []) : Utterance.normalize (s ++ j.text ++ t) = s ++ j.text ++ t := by
  obtain rfl | rfl | ⟨w, hw, hj⟩ := j.text_cases
  · refine (normalize_append_comma_space hs.trimmed.2 t).trans ?_
    rw [hs.normalize, ht, afterSpace, if_neg htne, List.append_assoc]
    rfl
  · rw [List.append_assoc]
    exact normalize_spaced hs.normalize ht hs.ne_nil htne
  · have hall : ∀ w ∈ joiningWords, Utterance.normalize w = w := by decide +kernel
    have hword := normalize_spaced (hall w hw) ht (isField_of_mem_joiningWords hw).1 htne
    have hsplit : s ++ j.text ++ t = s ++ ' ' :: (w ++ ' ' :: t) := by simp [hj]
    rw [hsplit]
    exact normalize_spaced hs.normalize hword hs.ne_nil (by simp)

/-- **Between two parts anything but a space delimits.** -/
theorem Unbroken.segments_append (hs : Unbroken s) {j : Joiner} (hj : j ≠ .space)
    (ht : ∀ c ∈ t.head?, isBlank c = false) :
    Utterance.segments (s ++ j.text ++ t) = s :: Utterance.segments t := by
  rw [← List.singleton_append, ← hs.segments]
  obtain rfl | rfl | ⟨w, hw, hj⟩ := j.text_cases
  · have hcut := segments_append_comma hs.trimmed.2 (' ' :: t)
    rw [Text.dropBlanks_space ht] at hcut
    rw [List.append_assoc]
    exact hcut
  · exact absurd rfl hj
  · have hsplit : s ++ j.text ++ t = s ++ ' ' :: (w ++ ' ' :: t) := by simp [hj]
    rw [hsplit]
    exact segments_append_joiner hw hs.trimmed.2 hs.endsApart ht

/-! ## Enumerations -/

/-- An enumeration of the parts, with what is said between them. -/
def enumerate (first : Text) : List (Joiner × Text) → Text
  | [] => first
  | (j, next) :: rest => first ++ j.text ++ enumerate next rest

/-- The parts of an enumeration as a delimiter parts them. -/
def runs (first : Text) : List (Joiner × Text) → List Text
  | [] => [first]
  | (.space, next) :: rest => runs (first ++ ' ' :: next) rest
  | (_, next) :: rest => first :: runs next rest

theorem runs_cons {j : Joiner} (hj : j ≠ .space) (first next : Text)
    (rest : List (Joiner × Text)) : runs first ((j, next) :: rest) = first :: runs next rest := by
  cases j with
  | space => exact absurd rfl hj
  | comma | and | plus => rfl

theorem enumerate_append (s t : Text) (rest : List (Joiner × Text)) :
    enumerate (s ++ t) rest = s ++ enumerate t rest := by
  cases rest with
  | nil => rfl
  | cons x rest => simp [enumerate]

theorem enumerate_ne_nil (hfirst : first ≠ []) (rest : List (Joiner × Text)) :
    enumerate first rest ≠ [] := by
  cases rest with
  | nil => exact hfirst
  | cons x rest => simp [enumerate, hfirst]

/-- An enumeration of unbroken parts is in normal form. -/
theorem normalize_enumerate (hfirst : Unbroken first) (hrest : ∀ x ∈ rest, Unbroken x.2) :
    normalize (enumerate first rest) = enumerate first rest := by
  induction rest generalizing first with
  | nil => exact hfirst.normalize
  | cons x rest ih =>
    obtain ⟨hnext, hrest⟩ := List.forall_mem_cons.mp hrest
    exact hfirst.normalize_append x.1 (ih hnext hrest) (enumerate_ne_nil hnext.ne_nil rest)

/-- **The segments of an enumeration are its parts**, but for those that only a space
stands between. -/
theorem segments_enumerate (hfirst : Unbroken first) (hrest : ∀ x ∈ rest, Unbroken x.2) :
    segments (enumerate first rest) = runs first rest := by
  induction rest generalizing first with
  | nil => exact hfirst.segments
  | cons x rest ih =>
    obtain ⟨j, next⟩ := x
    obtain ⟨hnext, hothers⟩ := List.forall_mem_cons.mp hrest
    have hhead : ∀ c ∈ (enumerate next rest).head?, isBlank c = false := by
      rw [← normalize_enumerate hnext hothers]
      exact (trimmed_normalize _).1
    by_cases hj : j = .space
    · subst hj
      have hjoined : enumerate first ((.space, next) :: rest) =
          enumerate (first ++ ' ' :: next) rest := by
        have hsplit : first ++ ' ' :: next = first ++ [' '] ++ next := by simp
        rw [hsplit, enumerate_append]
        rfl
      rw [hjoined, runs]
      exact ih (hfirst.append_space hnext) hothers
    · rw [enumerate, runs_cons hj, hfirst.segments_append hj hhead, ih hnext hothers]

/-- Where no two parts have only a space between them, each part is a segment. -/
theorem segments_enumerate_of_ne_space (hfirst : Unbroken first) (hrest : ∀ x ∈ rest, Unbroken x.2)
    (hjoiners : ∀ x ∈ rest, x.1 ≠ .space) :
    segments (normalize (enumerate first rest)) = first :: rest.map Prod.snd := by
  have hruns : ∀ first, runs first rest = first :: rest.map Prod.snd := by
    induction rest with
    | nil => exact fun _ => rfl
    | cons x rest ih =>
      intro first
      obtain ⟨hx, hothers⟩ := List.forall_mem_cons.mp hjoiners
      rw [runs_cons hx, ih (fun y hy => hrest y (List.mem_cons_of_mem x hy)) hothers, List.map_cons]
  rw [normalize_enumerate hfirst hrest, segments_enumerate hfirst hrest, hruns]

/-! ## Commas between the parts -/

theorem join_comma (first : Text) (rest : List Text) :
    Text.join ", " (first :: rest) = enumerate first (rest.map fun t => (.comma, t)) := by
  induction rest generalizing first with
  | nil => exact List.intercalate_singleton
  | cons next rest ih =>
    rw [List.map_cons, enumerate, ← ih]
    simp [Text.join, Joiner.text, List.intercalate_cons_cons]

/-- Parts with commas between them are the segments of what is said. -/
theorem segments_join_comma {parts : List Text} (hne : parts ≠ [])
    (h : ∀ part ∈ parts, Unbroken part) : segments (normalize (Text.join ", " parts)) = parts := by
  obtain ⟨first, rest, rfl⟩ := List.exists_cons_of_ne_nil hne
  obtain ⟨hfirst, hrest⟩ := List.forall_mem_cons.mp h
  have hform : normalize (Text.join ", " (first :: rest)) = Text.join ", " (first :: rest) := by
    rw [join_comma]
    refine normalize_enumerate hfirst fun x hx => ?_
    obtain ⟨t, ht, rfl⟩ := List.mem_map.mp hx
    exact hrest t ht
  rw [hform]
  exact segments_listing_iff.mpr fun part hpart => (h part hpart).isSegment

end SpokenList.Utterance
