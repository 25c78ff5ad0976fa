import SpokenList.Proofs.Coercion
import SpokenList.Proofs.Quantities

/-! # Quantities and the limit

What is read as a quantity goes into an entry of a plan, which is checked against the
limit.  A run of digits is compared with the limit when it is read, but a number word
is only looked up.  So what a token denotes is read if and only if it is within the
limit, and every entry for it passes the checks, exactly for those tokens that are no
number word for more than the limit; and of every token this holds if and only if the
limit is ten at least (`quantity?_exact_iff`).
-/
namespace SpokenList.Utterance

variable {limits : Limits} {token : Text} {n : Int}

/-! ## Entries for a number -/

/-- The checks of a plan accept every entry for the number: so many of an item, and a
change by so much, up or down. -/
def Accepted (limits : Limits) (n : Int) : Prop :=
  ∀ channel, ∀ name ≠ [],
    (∀ note, let e : AddEntry := ⟨name, n, note⟩
      AddEntry.ofJson limits channel e.toJson = .ok e) ∧
    ∀ delta, delta = n ∨ delta = -n → let e : AdjustEntry := ⟨name, delta⟩
      AdjustEntry.ofJson limits channel e.toJson = .ok e

theorem accepted_iff : Accepted limits n ↔ 1 ≤ n ∧ n ≤ limits.quantity := by
  constructor
  · intro h
    have hadd := (h .document ['a'] (List.cons_ne_nil _ _)).1 none
    exact (AddEntry.ofJson_toJson_iff.mp hadd).2
  · rintro ⟨hone, hle⟩ channel name hname
    refine ⟨fun note => AddEntry.ofJson_toJson_iff.mpr ⟨hname, hone, hle⟩, fun delta hdelta => ?_⟩
    have hbounds : -limits.quantity ≤ delta ∧ delta ≤ limits.quantity ∧ delta ≠ 0 := by omega
    exact AdjustEntry.ofJson_toJson_iff.mpr ⟨hname, hbounds⟩

/-! ## Tokens -/

/-- From the token exactly the number within the limit is read that it denotes, if it
denotes one, and the number that is read is accepted. -/
def ReadExactly (limits : Limits) (token : Text) : Prop :=
  ∀ n, (quantity? limits token = some n ↔ (1 ≤ n ∧ n ≤ limits.quantity) ∧ Denotes token n) ∧
    (quantity? limits token = some n → Accepted limits n)

/-- A number word for more than the limit is the one exception. -/
theorem readExactly_iff :
    ReadExactly limits token ↔ ∀ n, IsNumberWord token n → n ≤ limits.quantity := by
  constructor
  · intro h n hword
    have hread : quantity? limits token = some n := quantity?_eq_some_iff.mpr (Or.inr hword)
    exact (((h n).1.mp hread).1).2
  · intro h n
    have hbounds : quantity? limits token = some n → 1 ≤ n ∧ n ≤ limits.quantity := by
      intro hread
      rcases quantity?_eq_some_iff.mp hread with ⟨-, hbounds⟩ | hword
      · exact hbounds
      · exact ⟨hword.bounds.1, h n hword⟩
    refine ⟨⟨fun hread => ⟨hbounds hread, ?_⟩, ?_⟩, fun hread => accepted_iff.mpr (hbounds hread)⟩
    · exact (quantity?_eq_some_iff.mp hread).imp_left And.left
    · rintro ⟨⟨hone, hle⟩, hdenotes⟩
      exact quantity?_of_denotes hdenotes hone hle

/-- **When quantities are read exactly.**  From a token exactly the number from one to
the limit is read that its digits or its number word denote, and every entry for what
is read is accepted, unless the token is a number word for more than the limit.  So
this holds of all tokens if and only if the limit is ten at least. -/
theorem quantity?_exact_iff (limits : Limits) :
    (∀ token, ReadExactly limits token ↔
      ∀ n, IsNumberWord token n → n ≤ limits.quantity) ∧
    ((∀ token, ReadExactly limits token) ↔ 10 ≤ limits.quantity) := by
  refine ⟨fun _ => readExactly_iff, ?_⟩
  simp only [readExactly_iff]
  constructor
  · intro h
    exact h "ten" 10 (by decide)
  · intro h token n hword
    exact Int.le_trans hword.bounds.2 h

/-- Where five is the limit, ten is read from its word, and no entry for it is accepted. -/
theorem quantity?_above_limit :
    let limits : Limits := ⟨5, 2000⟩
    1 ≤ limits.quantity ∧ quantity? limits "ten" = some 10 ∧ ¬ (10 ≤ limits.quantity) ∧
      ¬ Accepted limits 10 ∧ ¬ ∀ token, ReadExactly limits token := by
  intro limits
  have hread : quantity? limits "ten" = some 10 := by decide
  have hrefused : ¬ Accepted limits 10 := by
    rw [accepted_iff]
    decide
  exact ⟨by decide, hread, by decide, hrefused, fun h => hrefused ((h "ten" 10).2 hread)⟩

end SpokenList.Utterance
