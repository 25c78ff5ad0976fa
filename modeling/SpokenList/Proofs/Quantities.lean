import SpokenList.Proofs.Lowering
import SpokenList.Proofs.Numerals
import SpokenList.Utterance.Quantity

/-! # Quantities in commands

A token denotes a number if it is a run of ASCII digits for it, with zeros in front
or not, or its number word (`Denotes`).  Exactly such tokens are read as quantities, the
runs of digits only from one to the limit (`quantity?_eq_some_iff`).

So a number within the limit that is spelled out (`Spells`) is read back, and the token
that says it has none of the characters that mean something elsewhere in a command
(`plain_of_mem_alphabet`).
-/
namespace SpokenList.Utterance

variable {limits : Limits} {token : Text} {n : Int} {c : Char}

/-! ## Runs of digits -/

/-- The token is a run of ASCII digits for the number. -/
def Numeral (token : Text) (n : Int) : Prop :=
  token ≠ [] ∧ (∀ c ∈ token, Text.isAsciiDigit c = true) ∧ n = Text.asciiValue token

/-- **A run of digits is read from one to the limit**; that its length is compared
before its value makes no difference. -/
theorem digitRun?_eq_some_iff (hdigits : ∀ c ∈ token, Text.isAsciiDigit c = true) :
    digitRun? limits token = some n ↔
      n = Text.asciiValue token ∧ 1 ≤ n ∧ n ≤ limits.quantity := by
  have hvalue := Text.asciiValue_dropZeros token
  have hnot := List.head?_dropWhile_not (· == '0') token
  have hsub := (List.dropWhile_sublist (l := token) (· == '0')).subset
  rw [digitRun?]
  cases hrun : token.dropWhile (· == '0') with
  | nil =>
    have hzero : Text.asciiValue token = 0 := by rw [← hvalue, hrun]; rfl
    refine iff_of_false nofun fun h => ?_
    omega
  | cons c rest =>
    rw [hrun] at hvalue hnot hsub
    have hc : Text.isAsciiDigit c = true := hdigits c (hsub (List.mem_cons_self ..))
    have hne : c ≠ '0' := by simpa using hnot
    have hone : 1 ≤ Text.asciiValue token := by
      rw [← hvalue]
      exact Nat.le_trans (Nat.one_le_pow _ 10 (by decide)) (Text.pow_le_asciiValue hc hne rest)
    by_cases hlength : (Text.ofInt limits.quantity).length < (c :: rest).length
    · have hlt := Text.lt_asciiValue hc hne hlength
      rw [hvalue] at hlt
      simp only [hlength, decide_true, Bool.or_true, if_true]
      refine iff_of_false nofun fun h => ?_
      omega
    · simp only [hlength, hvalue, decide_false, List.isEmpty_cons, Bool.or_false,
        Bool.false_eq_true, if_false]
      constructor
      · intro h
        split at h
        · obtain rfl := Option.some.inj h
          omega
        · cases h
      · rintro ⟨rfl, -, hle⟩
        exact if_pos hle

/-! ## Number words -/

/-- The words for the numbers from one on. -/
def spokenNumbers : List Text :=
  ["one", "two", "three", "four", "five", "six", "seven", "eight", "nine", "ten"]

/-- The token is the word for the number. -/
def IsNumberWord (token : Text) (n : Int) : Prop :=
  ∃ k : Nat, spokenNumbers[k]? = some token ∧ n = k + 1

theorem mem_numberWords_iff : (token, n) ∈ numberWords ↔ IsNumberWord token n := by
  have hcounted : numberWords = spokenNumbers.zipIdx.map fun w => (w.1, (w.2 : Int) + 1) := by decide
  rw [hcounted, List.mem_map]
  constructor
  · rintro ⟨⟨w, k⟩, hmem, heq⟩
    obtain ⟨rfl, rfl⟩ := Prod.mk.inj heq
    exact ⟨k, List.mem_zipIdx_iff_getElem?.mp hmem, rfl⟩
  · rintro ⟨k, hword, rfl⟩
    exact ⟨(token, k), List.mem_zipIdx_iff_getElem?.mpr hword, rfl⟩

instance (token : Text) (n : Int) : Decidable (IsNumberWord token n) :=
  decidable_of_iff _ mem_numberWords_iff

/-- The words are for the numbers up to ten. -/
theorem IsNumberWord.bounds (h : IsNumberWord token n) : 1 ≤ n ∧ n ≤ 10 := by
  obtain ⟨k, hword, rfl⟩ := h
  have hk : k < spokenNumbers.length := (List.getElem?_eq_some_iff.mp hword).1
  have hlength : spokenNumbers.length = 10 := rfl
  omega

theorem exists_isNumberWord_iff : (∃ n, IsNumberWord token n) ↔ token ∈ spokenNumbers := by
  rw [List.mem_iff_getElem?]
  constructor
  · rintro ⟨n, k, hword, -⟩
    exact ⟨k, hword⟩
  · rintro ⟨k, hword⟩
    exact ⟨k + 1, k, hword, rfl⟩

theorem numberWord?_eq_some_iff : numberWord? token = some n ↔ IsNumberWord token n := by
  rw [← mem_numberWords_iff]
  constructor
  · intro h
    obtain ⟨entry, hentry, rfl⟩ := Option.map_eq_some_iff.mp h
    obtain rfl : entry.1 = token := by simpa using List.find?_some hentry
    exact List.mem_of_find?_eq_some hentry
  · have hall : ∀ entry ∈ numberWords, numberWord? entry.1 = some entry.2 := by decide
    exact hall (token, n)

theorem IsNumberWord.mem_spokenNumbers (h : IsNumberWord token n) : token ∈ spokenNumbers :=
  exists_isNumberWord_iff.mp ⟨n, h⟩

theorem IsNumberWord.not_numeral {m : Int} (h : IsNumberWord token m) : ¬ Numeral token n := by
  have hall : ∀ w ∈ spokenNumbers, ¬ w.all Text.isAsciiDigit = true := by decide
  exact fun hnumeral => hall token h.mem_spokenNumbers (List.all_eq_true.mpr hnumeral.2.1)

/-! ## Tokens that denote a number -/

/-- The token denotes the number, by a run of digits or by a number word. -/
def Denotes (token : Text) (n : Int) : Prop := Numeral token n ∨ IsNumberWord token n

/-- **What is read from a token**: the number that it denotes, within the limit if it is
a run of digits. -/
theorem quantity?_eq_some_iff : quantity? limits token = some n ↔
    (Numeral token n ∧ 1 ≤ n ∧ n ≤ limits.quantity) ∨ IsNumberWord token n := by
  rw [quantity?]
  by_cases hrun : token ≠ [] ∧ ∀ c ∈ token, Text.isAsciiDigit c = true
  · have hword : ¬ IsNumberWord token n := fun h => h.not_numeral ⟨hrun.1, hrun.2, rfl⟩
    rw [if_pos (by simpa using hrun), digitRun?_eq_some_iff hrun.2, or_iff_left hword, Numeral]
    tauto
  · have hnumeral : ¬ (Numeral token n ∧ 1 ≤ n ∧ n ≤ limits.quantity) := fun h =>
      hrun ⟨h.1.1, h.1.2.1⟩
    rw [if_neg (by simpa using hrun), numberWord?_eq_some_iff, or_iff_right hnumeral]

/-- Within the limit every number is read that a token denotes. -/
theorem quantity?_of_denotes (h : Denotes token n) (hone : 1 ≤ n) (hle : n ≤ limits.quantity) :
    quantity? limits token = some n :=
  quantity?_eq_some_iff.mpr (h.imp_left fun hnumeral => ⟨hnumeral, hone, hle⟩)

/-- The token says the number, in digits or by its number word. -/
def Spells (token : Text) (n : Int) : Prop := token = Text.ofInt n ∨ IsNumberWord token n

instance (token : Text) (n : Int) : Decidable (Spells token n) :=
  inferInstanceAs (Decidable (_ ∨ _))

/-- A number that is spelled out is denoted, without zeros in front. -/
theorem Spells.denotes (h : Spells token n) (hone : 1 ≤ n) : Denotes token n := by
  refine h.imp_left ?_
  rintro rfl
  obtain ⟨k, rfl⟩ := Int.eq_ofNat_of_zero_le (by omega : 0 ≤ n)
  exact ⟨Nat.toDigits_ne_nil, fun c => Text.isAsciiDigit_of_mem_ofNat,
    congrArg Int.ofNat (Text.asciiValue_ofNat k).symm⟩

/-- **A number that is spelled out is read back**, in digits as well as in a word. -/
theorem quantity?_of_spells (h : Spells token n) (hone : 1 ≤ n) (hle : n ≤ limits.quantity) :
    quantity? limits token = some n := quantity?_of_denotes (h.denotes hone) hone hle

theorem quantity?_nil : quantity? limits [] = none := rfl

/-- Neither a joining word nor a unit or filler word says how many. -/
theorem quantity?_eq_none (h : token ∈ joiningWords ++ unitWords ++ fillerWords) :
    quantity? limits token = none := by
  have hall : ∀ w ∈ joiningWords ++ unitWords ++ fillerWords,
      (!w.isEmpty && w.all Text.isAsciiDigit) = false ∧ numberWord? w = none := by decide
  rw [quantity?, (hall token h).1]
  exact (hall token h).2

/-! ## Characters -/

/-- The characters that numerals, number words and unit words are made of. -/
def alphabet : Text := "0123456789abcdefghijklmnopqrstuvwxyz"

/-- A character of the alphabet is in lower case, and means nothing on its own. -/
theorem plain_of_mem_alphabet (h : c ∈ alphabet) :
    Text.isBlank c = false ∧ Text.Lowered c ∧ c ≠ ',' ∧ c ≠ '(' := by
  have hall : (alphabet.all fun c =>
      Text.isBlank c = false ∧ Text.Lowered c ∧ c ≠ ',' ∧ c ≠ '(') = true := by decide +kernel
  exact of_decide_eq_true (List.all_eq_true.mp hall c h)

theorem mem_alphabet_of_isAsciiDigit (h : Text.isAsciiDigit c = true) : c ∈ alphabet :=
  Text.of_isAsciiDigit (P := (· ∈ alphabet)) (by decide) h

/-- A token that says how many is written in the alphabet. -/
theorem mem_alphabet_of_quantity? (h : quantity? limits token = some n) (hc : c ∈ token) :
    c ∈ alphabet := by
  rcases quantity?_eq_some_iff.mp h with ⟨⟨-, hdigits, -⟩, -⟩ | hword
  · exact mem_alphabet_of_isAsciiDigit (hdigits c hc)
  · have hall : ∀ w ∈ spokenNumbers, w ⊆ alphabet := by decide
    exact hall token hword.mem_spokenNumbers hc

theorem mem_alphabet_of_mem_unitWords (h : token ∈ unitWords) (hc : c ∈ token) : c ∈ alphabet := by
  have hall : ∀ w ∈ unitWords, w ⊆ alphabet := by decide
  exact hall _ h hc

end SpokenList.Utterance
