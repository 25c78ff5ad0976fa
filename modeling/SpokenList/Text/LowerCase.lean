import SpokenList.Text.CaseTable

/-! # Lower case

Full lower-casing of a text.  Every character goes by the table on its own, with
two exceptions: the capital I with a dot becomes two characters, and a capital
sigma becomes the final form at the end of a word and the ordinary one
elsewhere.  A sigma ends a word when a character with case stands before it and
none after it, passing over the characters that are ignored for case.
-/
namespace SpokenList.Text

/-- The lower case of a code point, for capitals that have just one. -/
def lowerCode? : List CaseRun → Nat → Option Nat
  | [], _ => none
  | r :: rest, n =>
    if n < r.first then none
    else if n ≤ r.last ∧ (n - r.first) % r.step = 0 then some (r.target + (n - r.first))
    else lowerCode? rest n

/-- The lower case of a character that stands on its own. -/
def lowerChar (c : Char) : Text :=
  if c = 'İ' then ['i', '\u0307']
  else if c = 'Σ' then ['σ']
  else match lowerCode? caseRuns c.toNat with
    | some n => [Char.ofNat n]
    | none => [c]

/-- A character that is passed over when looking for one with case. -/
def isCaseIgnorable (c : Char) : Bool := caseIgnorableRanges.has c.toNat

/-- A character with case that is not passed over. -/
def isCased (c : Char) : Bool := casedRanges.has c.toNat

/-- The next character that is not passed over has case. -/
def casedNext (t : Text) : Bool :=
  match t.dropWhile isCaseIgnorable with
  | [] => false
  | c :: _ => isCased c

/-- Lower case of what follows a text; `inWord` tells whether the last character
that was not passed over has case. -/
def lowerFrom (inWord : Bool) : Text → Text
  | [] => []
  | c :: cs =>
    let here := if c = 'Σ' ∧ inWord ∧ !casedNext cs then ['ς'] else lowerChar c
    here ++ lowerFrom (if isCaseIgnorable c then inWord else isCased c) cs

/-- The lower case of a text. -/
def lower (t : Text) : Text := lowerFrom false t

end SpokenList.Text
