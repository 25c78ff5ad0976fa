import Mathlib.Data.List.Basic
import SpokenList.Proofs.Trimming
import SpokenList.Text.LowerCase

/-! # What lower-casing leaves

Every character that lower-casing writes is its own lower case (`Lowered`).  For
the characters of the table this is a property of the table, which is checked once for
all its images (`caseRuns_clear`, `caseRuns_miss`); the rest follows from it: a text is
the same when it is lowered twice (`lower_lower`), lowering the ASCII letters
first makes no difference (`lower_lowerAscii`), and no blank appears or goes
(`Trimmed.lower`).  What becomes of a character depends on those around it, but not
beyond one that has no case and is not passed over (`lowerFrom_append_cons`).
-/
namespace SpokenList.Text

/-- The character is its own lower case. -/
def Lowered (c : Char) : Prop := lowerChar c = [c]

instance (c : Char) : Decidable (Lowered c) := inferInstanceAs (Decidable (_ = _))

/-! ## The table -/

namespace CaseRun

/-- The run has the lower case of a code point. -/
def Holds (r : CaseRun) (n : Nat) : Prop :=
  r.first ≤ n ∧ n ≤ r.last ∧ (n - r.first) % r.step = 0

/-- The lower case that the run has for a code point. -/
def image (r : CaseRun) (n : Nat) : Nat := r.target + (n - r.first)

/-- The lower case of the last capital of the run. -/
def top (r : CaseRun) : Nat := r.target + (r.last - r.first)

/-- No lower case of the run is a capital of the others: it lies before or after
them, or they are every other code point and it is between them. -/
def clearOf (r : CaseRun) : List CaseRun → Bool
  | [] => true
  | s :: rest =>
    Nat.blt r.top s.first || (Nat.blt s.last r.target ||
      (s.step == 2 && (r.step == 2 || r.first == r.last) && (r.target + s.first) % 2 == 1)) &&
        r.clearOf rest

/-- No lower case of the run lies in one of the ranges. -/
def misses (r : CaseRun) (ranges : Ranges) : Bool :=
  ranges.all fun range => Nat.blt range.2 r.target || Nat.blt r.top range.1

variable {r : CaseRun} {n : Nat}

theorem image_bounds (h : r.Holds n) : r.target ≤ r.image n ∧ r.image n ≤ r.top := by
  obtain ⟨hfirst, hlast, _⟩ := h
  unfold image top
  omega

theorem lowerCode?_image (h : r.Holds n) {runs : List CaseRun} (hclear : r.clearOf runs = true) :
    lowerCode? runs (r.image n) = none := by
  obtain ⟨hlow, htop⟩ := image_bounds h
  induction runs with
  | nil => rfl
  | cons s rest ih =>
    unfold lowerCode?
    split
    · rfl
    · rename_i hfirst
      rw [clearOf, Bool.or_eq_true, Bool.and_eq_true, Bool.or_eq_true, Nat.blt_eq, Nat.blt_eq]
        at hclear
      obtain hbefore | ⟨hother, hrest⟩ := hclear
      · omega
      · rw [if_neg, ih hrest]
        rintro ⟨hlast, hstep⟩
        rcases hother with hafter | hbetween
        · omega
        · -- Where the capitals are every other code point, parity tells the two apart.
          simp only [Bool.and_eq_true, Bool.or_eq_true, beq_iff_eq] at hbetween
          obtain ⟨⟨hs, hr⟩, hodd⟩ := hbetween
          obtain ⟨hle, hle', hmod⟩ := h
          rw [hs] at hstep
          have heven : (n - r.first) % 2 = 0 := by
            rcases hr with hr | hr
            · rwa [hr] at hmod
            · omega
          unfold image at hstep hfirst
          omega

theorem not_in_of_misses (h : r.Holds n) {ranges : Ranges} (hmisses : r.misses ranges = true)
    {lo hi : Nat} (hrange : (lo, hi) ∈ ranges) : ¬ (lo ≤ r.image n ∧ r.image n ≤ hi) := by
  obtain ⟨hlow, htop⟩ := image_bounds h
  rintro ⟨hlo, hhi⟩
  have hapart := List.all_eq_true.mp hmisses (lo, hi) hrange
  rw [Bool.or_eq_true, Nat.blt_eq, Nat.blt_eq] at hapart
  omega

end CaseRun

theorem holds_of_lowerCode? {runs : List CaseRun} {n m : Nat} (h : lowerCode? runs n = some m) :
    ∃ r ∈ runs, r.Holds n ∧ m = r.image n := by
  induction runs with
  | nil => cases h
  | cons r rest ih =>
    unfold lowerCode? at h
    split at h
    · cases h
    · rename_i hfirst
      split at h
      · rename_i hrun
        exact ⟨r, List.mem_cons_self .., ⟨by omega, hrun.1, hrun.2⟩, (Option.some.inj h).symm⟩
      · obtain ⟨r', hr', hm⟩ := ih h
        exact ⟨r', List.mem_cons_of_mem _ hr', hm⟩

/-- Code points that are not the lower case of any capital: the separators that
are blank besides the white space, the two capitals that are not in the table,
and those that are no characters. -/
def otherRanges : Ranges := [(0x1C, 0x1F), (0x130, 0x130), (0x3A3, 0x3A3), (0xD800, 0xDFFF)]

theorem caseRuns_clear : ∀ r ∈ caseRuns, r.clearOf caseRuns = true := by decide +kernel

theorem caseRuns_miss : ∀ r ∈ caseRuns,
    r.misses whiteSpaceRanges = true ∧ r.misses otherRanges = true ∧ r.top < 0x110000 := by
  decide +kernel

theorem toNat_ofNat {n : Nat} (h : n.isValidChar) : (Char.ofNat n).toNat = n := by
  rw [Char.ofNat, dif_pos h]
  rfl

/-- What the table makes of a capital is a character of its own lower case, and
not blank. -/
theorem lowered_of_lowerCode? {n m : Nat} (h : lowerCode? caseRuns n = some m) :
    Lowered (Char.ofNat m) ∧ isBlank (Char.ofNat m) = false := by
  obtain ⟨r, hr, hholds, rfl⟩ := holds_of_lowerCode? h
  obtain ⟨hwhite, hother, htop⟩ := caseRuns_miss r hr
  have hmissed : ∀ lo hi, (lo, hi) ∈ otherRanges → ¬ (lo ≤ r.image n ∧ r.image n ≤ hi) :=
    fun _ _ => CaseRun.not_in_of_misses hholds hother
  have hcode : (Char.ofNat (r.image n)).toNat = r.image n := by
    have hbound := (CaseRun.image_bounds hholds).2
    have hsurrogate := hmissed 0xD800 0xDFFF (by decide)
    refine toNat_ofNat ?_
    unfold Nat.isValidChar
    omega
  constructor
  · have hdotted : Char.ofNat (r.image n) ≠ 'İ' := by
      intro hc
      rw [hc] at hcode
      exact hmissed 0x130 0x130 (by decide) (by rw [← hcode]; decide)
    have hsigma : Char.ofNat (r.image n) ≠ 'Σ' := by
      intro hc
      rw [hc] at hcode
      exact hmissed 0x3A3 0x3A3 (by decide) (by rw [← hcode]; decide)
    rw [Lowered, lowerChar, if_neg hdotted, if_neg hsigma, hcode,
      CaseRun.lowerCode?_image hholds (caseRuns_clear r hr)]
  · have hspace : whiteSpaceRanges.has (r.image n) = false := by
      rw [← Bool.not_eq_true]
      intro hhas
      obtain ⟨range, hrange, hin⟩ := Ranges.mem_of_has hhas
      exact CaseRun.not_in_of_misses hholds hwhite hrange hin
    have hseparator := hmissed 0x1C 0x1F (by decide)
    rw [isBlank, isWhiteSpace, hcode, hspace, Bool.false_or, ← Bool.not_eq_true, Bool.and_eq_true,
      decide_eq_true_iff, decide_eq_true_iff]
    exact hseparator

/-- The lower case of a character is the character, or comes out of the table, or
is one of the two exceptions. -/
theorem lowerChar_cases (c : Char) :
    Lowered c ∨ (c = 'İ' ∧ lowerChar c = ['i', '\u0307']) ∨ (c = 'Σ' ∧ lowerChar c = ['σ']) ∨
      ∃ d, lowerChar c = [d] ∧ Lowered d ∧ isBlank d = false := by
  unfold Lowered lowerChar
  split
  · rename_i hc
    exact Or.inr (Or.inl ⟨hc, rfl⟩)
  · split
    · rename_i hc
      exact Or.inr (Or.inr (Or.inl ⟨hc, rfl⟩))
    · split
      · rename_i m hm
        exact Or.inr (Or.inr (Or.inr ⟨_, rfl, lowered_of_lowerCode? hm⟩))
      · exact Or.inl rfl

theorem lowered_of_mem_lowerChar {c d : Char} (h : d ∈ lowerChar c) : Lowered d := by
  rcases lowerChar_cases c with hc | ⟨_, hc⟩ | ⟨_, hc⟩ | ⟨e, hc, he, _⟩
  · rw [show lowerChar c = [c] from hc] at h
    rwa [List.mem_singleton.mp h]
  · rw [hc, List.mem_cons, List.mem_singleton] at h
    rcases h with rfl | rfl
    · decide +kernel
    · decide +kernel
  · rw [hc] at h
    rw [List.mem_singleton.mp h]
    decide +kernel
  · rw [hc] at h
    rw [List.mem_singleton.mp h]
    exact he

theorem isBlank_of_mem_lowerChar {c d : Char} (hc : isBlank c = false) (h : d ∈ lowerChar c) :
    isBlank d = false := by
  rcases lowerChar_cases c with hlow | ⟨_, hlow⟩ | ⟨_, hlow⟩ | ⟨e, hlow, _, he⟩
  · rw [show lowerChar c = [c] from hlow] at h
    rwa [List.mem_singleton.mp h]
  · rw [hlow, List.mem_cons, List.mem_singleton] at h
    rcases h with rfl | rfl
    · decide
    · decide
  · rw [hlow] at h
    rw [List.mem_singleton.mp h]
    decide
  · rw [hlow] at h
    rw [List.mem_singleton.mp h]
    exact he

theorem lowerChar_ne_nil (c : Char) : lowerChar c ≠ [] := by
  rcases lowerChar_cases c with h | ⟨_, h⟩ | ⟨_, h⟩ | ⟨d, h, _⟩
  · rw [show lowerChar c = [c] from h]
    exact List.cons_ne_nil c []
  · rw [h]
    exact List.cons_ne_nil _ _
  · rw [h]
    exact List.cons_ne_nil _ _
  · rw [h]
    exact List.cons_ne_nil d []

/-! ## Texts -/

/-- What a character of a text becomes, given what follows it. -/
def lowerAt (inWord : Bool) (c : Char) (cs : Text) : Text :=
  if c = 'Σ' ∧ inWord ∧ !casedNext cs then ['ς'] else lowerChar c

/-- Whether the text is in a word after the character. -/
def inWordAfter (inWord : Bool) (c : Char) : Bool :=
  if isCaseIgnorable c then inWord else isCased c

variable {inWord : Bool} {c d : Char} {s t : Text}

theorem lowerFrom_cons (inWord : Bool) (c : Char) (cs : Text) :
    lowerFrom inWord (c :: cs) = lowerAt inWord c cs ++ lowerFrom (inWordAfter inWord c) cs := rfl

theorem lowerAt_cases (inWord : Bool) (c : Char) (cs : Text) :
    lowerAt inWord c cs = lowerChar c ∨ (c = 'Σ' ∧ lowerAt inWord c cs = ['ς']) := by
  unfold lowerAt
  split
  · rename_i h
    exact Or.inr ⟨h.1, rfl⟩
  · exact Or.inl rfl

/-- A capital sigma is not its own lower case, so its final form does not come up. -/
theorem ne_sigma_of_lowered (h : Lowered c) : c ≠ 'Σ' := by
  rintro rfl
  exact absurd h (by decide)

theorem lowerAt_of_lowered (h : Lowered c) (cs : Text) : lowerAt inWord c cs = [c] := by
  rw [lowerAt, if_neg fun hand => ne_sigma_of_lowered h hand.1]
  exact h

theorem lowerAt_ne_nil (inWord : Bool) (c : Char) (cs : Text) : lowerAt inWord c cs ≠ [] := by
  rcases lowerAt_cases inWord c cs with h | ⟨_, h⟩
  · rw [h]
    exact lowerChar_ne_nil c
  · rw [h]
    exact List.cons_ne_nil _ _

theorem lowerFrom_eq_nil : lowerFrom inWord t = [] ↔ t = [] := by
  cases t with
  | nil => exact iff_of_true rfl rfl
  | cons c cs =>
    refine iff_of_false ?_ (List.cons_ne_nil c cs)
    rw [lowerFrom_cons, List.append_eq_nil_iff]
    exact fun h => lowerAt_ne_nil inWord c cs h.1

theorem lowered_of_mem_lowerAt {cs : Text} (h : d ∈ lowerAt inWord c cs) : Lowered d := by
  rcases lowerAt_cases inWord c cs with hc | ⟨_, hc⟩
  · rw [hc] at h
    exact lowered_of_mem_lowerChar h
  · rw [hc] at h
    rw [List.mem_singleton.mp h]
    decide +kernel

theorem isBlank_of_mem_lowerAt {cs : Text} (hc : isBlank c = false)
    (h : d ∈ lowerAt inWord c cs) : isBlank d = false := by
  rcases lowerAt_cases inWord c cs with hat | ⟨_, hat⟩
  · rw [hat] at h
    exact isBlank_of_mem_lowerChar hc h
  · rw [hat] at h
    rw [List.mem_singleton.mp h]
    decide

/-- **What lower-casing writes is its own lower case.** -/
theorem lowered_of_mem_lowerFrom (h : d ∈ lowerFrom inWord t) : Lowered d := by
  induction t generalizing inWord with
  | nil => cases h
  | cons c cs ih =>
    rw [lowerFrom_cons, List.mem_append] at h
    rcases h with h | h
    · exact lowered_of_mem_lowerAt h
    · exact ih h

theorem lowerFrom_of_lowered (h : ∀ c ∈ t, Lowered c) : lowerFrom inWord t = t := by
  induction t generalizing inWord with
  | nil => rfl
  | cons c cs ih =>
    rw [lowerFrom_cons, lowerAt_of_lowered (h c (List.mem_cons_self ..)), ih fun c' hc' => h c' (List.mem_cons_of_mem _ hc')]
    rfl

/-- **A text is the same when it is lowered twice.** -/
theorem lower_lower (t : Text) : lower (lower t) = lower t :=
  lowerFrom_of_lowered fun _ => lowered_of_mem_lowerFrom

theorem casedNext_append_cons (hignore : isCaseIgnorable c = false) (hcased : isCased c = false)
    (s t : Text) : casedNext (s ++ c :: t) = casedNext s := by
  unfold casedNext
  rw [List.dropWhile_append, List.dropWhile_cons_of_neg (by simp [hignore])]
  cases s.dropWhile isCaseIgnorable with
  | nil => exact hcased
  | cons d rest => rfl

/-- Where there was no blank, lower-casing puts none. -/
theorem isBlank_of_mem_lowerFrom (ht : ∀ c ∈ t, isBlank c = false) (h : d ∈ lowerFrom inWord t) :
    isBlank d = false := by
  induction t generalizing inWord with
  | nil => cases h
  | cons c cs ih =>
    rw [lowerFrom_cons, List.mem_append] at h
    rcases h with h | h
    · exact isBlank_of_mem_lowerAt (ht c (List.mem_cons_self ..)) h
    · exact ih (fun c' hc' => ht c' (List.mem_cons_of_mem _ hc')) h

/-- A character without case that is not passed over parts a text into two that are
lowered each on its own. -/
theorem lowerFrom_append_cons (hc : Lowered c) (hignore : isCaseIgnorable c = false)
    (hcased : isCased c = false) (inWord : Bool) (s t : Text) :
    lowerFrom inWord (s ++ c :: t) = lowerFrom inWord s ++ c :: lowerFrom false t := by
  induction s generalizing inWord with
  | nil =>
    rw [List.nil_append, lowerFrom_cons, lowerAt_of_lowered hc, inWordAfter, hignore,
      if_neg (by decide), hcased]
    rfl
  | cons d rest ih =>
    have hat : lowerAt inWord d (rest ++ c :: t) = lowerAt inWord d rest := by
      rw [lowerAt, casedNext_append_cons hignore hcased, lowerAt]
    rw [List.cons_append, lowerFrom_cons, hat, ih, lowerFrom_cons, List.append_assoc]
/-- The last character of a lowered text comes from the last one of the text. -/
theorem getLast?_lowerFrom (h : d ∈ (lowerFrom inWord t).getLast?) :
    ∃ c ∈ t.getLast?, ∃ inWord', d ∈ lowerAt inWord' c [] := by
  induction t generalizing inWord with
  | nil => cases h
  | cons c cs ih =>
    rw [lowerFrom_cons] at h
    cases cs with
    | nil =>
      refine ⟨c, rfl, inWord, ?_⟩
      rw [lowerFrom, List.append_nil] at h
      exact List.mem_of_getLast? h
    | cons c' rest =>
      rw [List.getLast?_append_of_ne_nil _ (mt lowerFrom_eq_nil.mp (List.cons_ne_nil c' rest))] at h
      exact ih h

/-- Lower-casing puts no blank at either end. -/
theorem Trimmed.lower (h : Trimmed isBlank t) : Trimmed isBlank (lower t) := by
  constructor
  · intro d hd
    cases t with
    | nil => cases hd
    | cons c cs =>
      have hne := lowerAt_ne_nil false c cs
      rw [Text.lower, lowerFrom_cons, List.head?_append_of_ne_nil _ hne] at hd
      exact isBlank_of_mem_lowerAt (h.1 c rfl) (List.mem_of_head? hd)
  · intro d hd
    obtain ⟨c, hc, _, hmem⟩ := getLast?_lowerFrom hd
    exact isBlank_of_mem_lowerAt (h.2 c hc) hmem

end SpokenList.Text
