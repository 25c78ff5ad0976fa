import Mathlib.Algebra.Group.Nat.Defs
import SpokenList.Text.Numeral

/-! # Numerals

The number that a numeral was written for is read off it again, so no two numbers
have the same numeral (`ofInt_inj`), and neither have they with the sign written out
(`ofSigned_inj`).

A run of ASCII digits may have zeros in front, which add nothing to what it stands
for (`asciiValue_dropZeros`).  Where it has none, a run that is longer than the numeral
of a bound stands for more than the bound (`lt_asciiValue`).
-/
namespace SpokenList.Text

variable {c : Char} {digits : Text} {m n : Int}

/-- A property of the ASCII digits, checked one by one. -/
theorem of_isAsciiDigit {P : Char → Prop} (h : ∀ k < 58, 48 ≤ k → P (Char.ofNat k))
    (hc : isAsciiDigit c = true) : P c := by
  obtain ⟨hlow, hhigh⟩ : '0' ≤ c ∧ c ≤ '9' := by simpa [isAsciiDigit] using hc
  rw [← Char.ofNat_toNat c]
  exact h c.toNat (Nat.lt_succ_of_le hhigh) hlow

/-! ## Writing -/

theorem isAsciiDigit_of_mem_ofNat {k : Nat} (hc : c ∈ ofNat k) : isAsciiDigit c = true := by
  have hdigit := Nat.isDigit_of_mem_toDigits (by decide) (by decide) hc
  simp only [Char.isDigit, Bool.and_eq_true, decide_eq_true_eq] at hdigit
  exact Bool.and_eq_true_iff.mpr ⟨decide_eq_true hdigit.1, decide_eq_true hdigit.2⟩

theorem asciiValue_ofNat (k : Nat) : asciiValue (ofNat k) = k := Nat.ofDigitChars_ten_toDigits

theorem ofNat_inj {k l : Nat} (h : ofNat k = ofNat l) : k = l := by
  rw [← asciiValue_ofNat k, h, asciiValue_ofNat]

theorem mem_ofInt (hc : c ∈ ofInt n) : c = '-' ∨ isAsciiDigit c = true := by
  cases n with
  | ofNat k => exact Or.inr (isAsciiDigit_of_mem_ofNat hc)
  | negSucc k => exact (List.mem_cons.mp hc).imp_right isAsciiDigit_of_mem_ofNat

theorem mem_ofSigned (hc : c ∈ ofSigned n) : c = '+' ∨ c = '-' ∨ isAsciiDigit c = true := by
  unfold ofSigned at hc
  split at hc
  · exact (List.mem_cons.mp hc).imp_right mem_ofInt
  · exact Or.inr (mem_ofInt hc)

theorem notMem_ofSigned (hc : c ≠ '+' ∧ c ≠ '-' ∧ isAsciiDigit c = false) : c ∉ ofSigned n := by
  intro hmem
  rcases mem_ofSigned hmem with h | h | h
  · exact hc.1 h
  · exact hc.2.1 h
  · rw [hc.2.2] at h
    cases h

theorem notMem_ofInt (hc : c ≠ '-' ∧ isAsciiDigit c = false) : c ∉ ofInt n := by
  intro hmem
  rcases mem_ofInt hmem with h | h
  · exact hc.1 h
  · rw [hc.2] at h
    cases h

/-- No natural number has a sign. -/
theorem ofNat_ne_cons (k : Nat) (t : Text) : ofNat k ≠ '-' :: t := by
  intro h
  have hmem : '-' ∈ ofNat k := by simp [h]
  exact absurd (isAsciiDigit_of_mem_ofNat hmem) (by decide)

theorem ofInt_inj (h : ofInt m = ofInt n) : m = n := by
  cases m with
  | ofNat k =>
    cases n with
    | ofNat l => rw [ofNat_inj h]
    | negSucc l => exact absurd h (ofNat_ne_cons k _)
  | negSucc k =>
    cases n with
    | ofNat l => exact absurd h.symm (ofNat_ne_cons l _)
    | negSucc l => rw [Nat.succ.inj (ofNat_inj (List.cons.inj h).2)]

/-- The sign tells the positive numbers from the others. -/
theorem ofSigned_inj (h : ofSigned m = ofSigned n) : m = n := by
  have hplus {k : Int} : '+' ∉ ofInt k := fun hmem =>
    (mem_ofInt hmem).elim (by decide) (by decide)
  unfold ofSigned at h
  by_cases hm : 0 < m <;> by_cases hn : 0 < n <;> simp only [hm, hn, if_true, if_false] at h
  · exact ofInt_inj (List.cons.inj h).2
  · exact absurd (h ▸ List.mem_cons_self ..) hplus
  · exact absurd (h ▸ List.mem_cons_self ..) hplus
  · exact ofInt_inj h

/-! ## Reading -/

/-- Zeros in front make no difference. -/
theorem asciiValue_dropZeros (digits : Text) :
    asciiValue (digits.dropWhile (· == '0')) = asciiValue digits := by
  induction digits with
  | nil => rfl
  | cons c rest ih =>
    by_cases hc : c = '0'
    · subst hc
      rw [List.dropWhile_cons_of_pos rfl, ih, asciiValue, asciiValue, Nat.ofDigitChars_cons]
      rfl
    · rw [List.dropWhile_cons_of_neg (by simpa using hc)]

/-- Without zeros in front the first digit counts for one at least, in its place. -/
theorem pow_le_asciiValue (hc : isAsciiDigit c = true) (hzero : c ≠ '0') (rest : Text) :
    10 ^ rest.length ≤ asciiValue (c :: rest) := by
  have hlow : '0'.toNat ≤ c.toNat := (Bool.and_eq_true_iff.mp hc).1 |> of_decide_eq_true
  have hne : '0'.toNat ≠ c.toNat := fun h => hzero (Char.toNat_inj.mp h.symm)
  have hone : 1 ≤ 10 * 0 + (c.toNat - '0'.toNat) := by omega
  rw [asciiValue, Nat.ofDigitChars_cons, Nat.ofDigitChars_eq_ofDigitChars_zero]
  exact Nat.le_trans (Nat.le_mul_of_pos_right _ hone) (Nat.le_add_right _ _)

/-- **A run that is longer than the numeral of a number stands for more.** -/
theorem lt_asciiValue (hc : isAsciiDigit c = true) (hzero : c ≠ '0') {rest : Text}
    (h : (ofInt m).length < (c :: rest).length) : m < asciiValue (c :: rest) := by
  have hpow := pow_le_asciiValue hc hzero rest
  cases m with
  | negSucc k => omega
  | ofNat k =>
    have hlength : (Nat.toDigits 10 k).length ≤ rest.length := Nat.le_of_lt_succ h
    have hpos : 0 < rest.length := Nat.lt_of_lt_of_le Nat.length_toDigits_pos hlength
    have hlt := (Nat.length_toDigits_le_iff (by decide) hpos).mp hlength
    exact Int.ofNat_lt.mpr (Nat.lt_of_lt_of_le hlt hpow)

end SpokenList.Text
