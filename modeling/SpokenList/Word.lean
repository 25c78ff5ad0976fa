/-! # Words

The integers that a signed word of 64 bits can hold.
-/
namespace SpokenList

/-- The integer fits a signed word of 64 bits. -/
def fitsWord (n : Int) : Bool := -Int.pow 2 63 ≤ n && n < Int.pow 2 63

theorem fitsWord_iff {n : Int} :
    fitsWord n = true ↔ -9223372036854775808 ≤ n ∧ n ≤ 9223372036854775807 := by
  have hpow : Int.pow 2 63 = 9223372036854775808 := rfl
  rw [fitsWord, Bool.and_eq_true, decide_eq_true_iff, decide_eq_true_iff, hpow]
  omega

end SpokenList
