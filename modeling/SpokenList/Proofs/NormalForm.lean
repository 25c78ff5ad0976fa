import SpokenList.Proofs.Openings

/-! # All that is read of a command

The normal form of a command is made of its words in lower case, so it says which words
there are and nothing about the blanks between them (`normalize_eq_normalize_iff`).  The
texts that are their own normal form are in lower case, with single spaces between words
for their only blanks (`normalize_eq_self_iff`): lower-casing, which comes last, leaves
nothing to be lowered and puts no blank anywhere.

Commands with one normal form ask for the same and are noted alike, and only the words that
the plan keeps tell them apart (`compile_congr`, `journal_congr`).  So a command may as well
be given in normal form (`compile_normalize`).
-/
namespace SpokenList.Utterance

open Text (isBlank Lowered SingleSpaced Trimmed)

variable {limits : Limits} {s t : Text}

/-! ## Normal form -/

/-- In lower case, with no blanks but single spaces between words. -/
structure NormalForm (t : Text) : Prop where
  lowered : ∀ c ∈ t, Lowered c
  singleSpaced : SingleSpaced t
  trimmed : Trimmed isBlank t

theorem normalForm_normalize (t : Text) : NormalForm (normalize t) where
  lowered _ hc := lowered_of_mem_normalize hc
  singleSpaced := singleSpaced_normalize t
  trimmed := trimmed_normalize t

/-- **The texts in normal form are those that normalizing leaves as they are.** -/
theorem normalize_eq_self_iff : normalize t = t ↔ NormalForm t := by
  constructor
  · intro h
    rw [← h]
    exact normalForm_normalize t
  · intro h
    rw [normalize, Text.collapse_eq_self_iff.mpr ⟨h.singleSpaced, h.trimmed⟩]
    exact Text.lowerFrom_of_lowered h.lowered

/-- Texts have one normal form if they have the same words, in whatever case and with
whatever blanks between them. -/
theorem normalize_eq_normalize_iff :
    normalize s = normalize t ↔ (Text.words s).map Text.lower = (Text.words t).map Text.lower := by
  constructor
  · intro h
    rw [← words_normalize, h, words_normalize]
  · intro h
    rw [normalize_eq_join, h, normalize_eq_join]

/-! ## Compiling -/

/-- The words that a plan keeps do not change what it asks for. -/
theorem Intent.plan_eq (limits : Limits) (raw raw' : Text) (i : Intent) :
    i.plan limits raw = { i.plan limits raw' with raw := raw } := by
  cases i <;> rfl

/-- **Commands with one normal form ask for the same.** -/
theorem compile_congr (h : normalize s = normalize t) :
    compile limits s = { compile limits t with raw := s } := by
  rw [compile_eq_plan, h, compile_eq_plan, Intent.plan_eq limits s t]

/-- Commands with one normal form are noted alike. -/
theorem journal_congr (h : normalize s = normalize t) : journal limits s = journal limits t := by
  rw [journal, h, journal]

/-- **The normal form is all that is read.**  It is its own normal form, with single spaces
between words for its only blanks; and compiled in place of the command it gives the same
plan, but for the words that the plan keeps, and the same records. -/
theorem compile_normalize (limits : Limits) (t : Text) :
    normalize (normalize t) = normalize t ∧ SingleSpaced (normalize t) ∧
      Trimmed isBlank (normalize t) ∧
      compile limits (normalize t) = { compile limits t with raw := normalize t } ∧
      journal limits (normalize t) = journal limits t := by
  have hform := normalForm_normalize t
  have hself : normalize (normalize t) = normalize t := normalize_eq_self_iff.mpr hform
  exact ⟨hself, hform.singleSpaced, hform.trimmed, compile_congr hself, journal_congr hself⟩

/-- A capital sigma is final or not by what is around it, a dotted capital I becomes two
characters, and neither is touched again. -/
example : normalize "\u2003ADD 2\tΤΥΡΟΣ.ΟΣ \u00a0İÇECEK\n" = "add 2 τυροσ.ος i\u0307çecek" := by
  decide +kernel

end SpokenList.Utterance
