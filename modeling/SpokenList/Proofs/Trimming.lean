import Mathlib.Data.List.DropRight
import SpokenList.Text.Blank

/-! # Trimmed texts

`trim p` takes the characters that satisfy `p` from both ends and no others
(`eq_append_trim_append`), so what is left begins and ends with a character that
does not satisfy `p` (`trimmed_trim`), and trimming first by fewer characters
makes no difference (`trim_trim_of_imp`).
-/
namespace SpokenList.Text

variable {p q : Char → Bool} {s t : Text}

/-- The text neither begins nor ends with a character that satisfies `p`. -/
def Trimmed (p : Char → Bool) (t : Text) : Prop :=
  (∀ c ∈ t.head?, p c = false) ∧ ∀ c ∈ t.getLast?, p c = false

instance (p : Char → Bool) (t : Text) : Decidable (Trimmed p t) :=
  inferInstanceAs (Decidable (_ ∧ _))

theorem trim_eq_rdropWhile (p : Char → Bool) (t : Text) :
    trim p t = (t.dropWhile p).rdropWhile p := rfl

theorem eq_append_trim_append (p : Char → Bool) (t : Text) :
    ∃ front back, t = front ++ trim p t ++ back ∧ (∀ c ∈ front, p c = true) ∧
      ∀ c ∈ back, p c = true := by
  refine ⟨t.takeWhile p, (t.dropWhile p).rtakeWhile p, ?_, ?_, ?_⟩
  · rw [trim_eq_rdropWhile, List.append_assoc, List.rdropWhile_append_rtakeWhile,
      List.takeWhile_append_dropWhile]
  · exact fun c hc => List.mem_takeWhile_imp hc
  · exact fun c hc => List.mem_rtakeWhile_imp hc

theorem mem_of_mem_trim {c : Char} (h : c ∈ trim p t) : c ∈ t := by
  obtain ⟨front, back, ht, _, _⟩ := eq_append_trim_append p t
  rw [ht]
  simp [h]

theorem trim_append_left (h : ∀ c ∈ s, p c = true) : trim p (s ++ t) = trim p t := by
  rw [trim, List.dropWhile_append_of_pos h, trim]

theorem trim_append_right (h : ∀ c ∈ s, p c = true) : trim p (t ++ s) = trim p t := by
  have hs : s.dropWhile p = [] := List.dropWhile_eq_nil_iff.mpr h
  have hsr : s.reverse.dropWhile p = [] :=
    List.dropWhile_eq_nil_iff.mpr fun c hc => h c (List.mem_reverse.mp hc)
  rw [trim, trim, List.dropWhile_append]
  cases ht : t.dropWhile p with
  | nil => simp [hs]
  | cons c rest =>
    rw [if_neg (by simp), List.reverse_append, List.dropWhile_append, hsr, if_pos (by simp)]

/-- Trimming by fewer characters first makes no difference. -/
theorem trim_trim_of_imp (h : ∀ c, q c = true → p c = true) (t : Text) :
    trim p (trim q t) = trim p t := by
  obtain ⟨front, back, ht, hfront, hback⟩ := eq_append_trim_append q t
  calc trim p (trim q t) = trim p (trim q t ++ back) :=
        (trim_append_right fun c hc => h c (hback c hc)).symm
    _ = trim p (front ++ (trim q t ++ back)) :=
        (trim_append_left fun c hc => h c (hfront c hc)).symm
    _ = trim p t := by rw [← List.append_assoc, ← ht]

theorem trimmed_trim (p : Char → Bool) (t : Text) : Trimmed p (trim p t) := by
  constructor
  · intro c hc
    obtain ⟨rest, hrest⟩ : trim p t <+: t.dropWhile p := List.rdropWhile_prefix p _
    obtain ⟨cs, hcs⟩ := List.head?_eq_some_iff.mp hc
    have hnot := List.head?_dropWhile_not p t
    rw [← hrest, hcs] at hnot
    exact hnot
  · intro c hc
    have hnot := List.head?_dropWhile_not p (t.dropWhile p).reverse
    rw [trim, List.getLast?_reverse] at hc
    rw [hc] at hnot
    exact hnot

theorem trim_eq_self_iff : trim p t = t ↔ Trimmed p t := by
  constructor
  · intro h
    rw [← h]
    exact trimmed_trim p t
  · rintro ⟨hhead, hlast⟩
    cases t with
    | nil => rfl
    | cons c rest =>
      have hdrop : (c :: rest).dropWhile p = c :: rest :=
        List.dropWhile_cons_of_neg (by simp [hhead c rfl])
      rw [trim_eq_rdropWhile, hdrop]
      refine List.rdropWhile_eq_self_iff.mpr ?_
      intro hne
      rw [hlast _ (List.getLast?_eq_some_getLast hne)]
      simp

theorem trim_trim (p : Char → Bool) (t : Text) : trim p (trim p t) = trim p t :=
  trim_trim_of_imp (fun _ h => h) t

@[simp] theorem strip_strip (t : Text) : strip (strip t) = strip t := trim_trim isBlank t

end SpokenList.Text
