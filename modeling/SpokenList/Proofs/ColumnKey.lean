import SpokenList.Ledger
import SpokenList.Proofs.Lowering

/-! # How a table reads a name

A table lowers the ASCII letters of a name and trims spaces, where the match key
of the name lowers all of them and strips every blank.  What the table finds for
a name is always a row that matches it (`Ledger.matchKey_of_columnKey`), but it
finds a row only if the name of the row is plain (`Ledger.PlainName`), that is,
if the two make the same key of it (`Ledger.columnKey_eq_matchKey_iff`).
-/
namespace SpokenList.Text

variable {c d : Char} {t : Text} {inWord : Bool}

/-! ## ASCII -/

/-- The ASCII lower case of a character. -/
def lowerAsciiChar (c : Char) : Char :=
  if 'A' ≤ c ∧ c ≤ 'Z' then Char.ofNat (c.toNat + 32) else c

theorem lowerAscii_eq_map (t : Text) : lowerAscii t = t.map lowerAsciiChar := rfl

/-- A property of the ASCII characters, checked one by one. -/
theorem forall_ascii {P : Char → Prop} (h : ∀ n < 128, P (Char.ofNat n)) (hc : c.toNat < 128) :
    P c := by
  rw [← Char.ofNat_toNat c]
  exact h c.toNat hc

theorem lowerAsciiChar_of_not_ascii (h : 128 ≤ c.toNat) : lowerAsciiChar c = c := by
  refine if_neg fun hletter => ?_
  have hle : c.toNat ≤ 90 := hletter.2
  omega

theorem lowerChar_of_ascii (h : c.toNat < 128) : lowerChar c = [lowerAsciiChar c] :=
  forall_ascii (P := fun c => lowerChar c = [lowerAsciiChar c]) (by decide +kernel) h

/-- Lowering an ASCII letter changes nothing that lower-casing asks of it. -/
theorem lowerAsciiChar_facts (c : Char) :
    lowerChar (lowerAsciiChar c) = lowerChar c ∧
      isCaseIgnorable (lowerAsciiChar c) = isCaseIgnorable c ∧
      isCased (lowerAsciiChar c) = isCased c ∧ isBlank (lowerAsciiChar c) = isBlank c ∧
      (lowerAsciiChar c = 'Σ' ↔ c = 'Σ') := by
  rcases Nat.lt_or_ge c.toNat 128 with hc | hc
  · exact forall_ascii (P := fun c => lowerChar (lowerAsciiChar c) = lowerChar c ∧
      isCaseIgnorable (lowerAsciiChar c) = isCaseIgnorable c ∧
      isCased (lowerAsciiChar c) = isCased c ∧ isBlank (lowerAsciiChar c) = isBlank c ∧
      (lowerAsciiChar c = 'Σ' ↔ c = 'Σ')) (by decide +kernel) hc
  · rw [lowerAsciiChar_of_not_ascii hc]
    exact ⟨rfl, rfl, rfl, rfl, Iff.rfl⟩

theorem casedNext_lowerAscii (t : Text) : casedNext (lowerAscii t) = casedNext t := by
  have hpassed : isCaseIgnorable ∘ lowerAsciiChar = isCaseIgnorable :=
    funext fun c => (lowerAsciiChar_facts c).2.1
  unfold casedNext
  rw [lowerAscii_eq_map, List.dropWhile_map, hpassed]
  cases t.dropWhile isCaseIgnorable with
  | nil => rfl
  | cons c cs => exact (lowerAsciiChar_facts c).2.2.1

theorem lowerFrom_lowerAscii : lowerFrom inWord (lowerAscii t) = lowerFrom inWord t := by
  induction t generalizing inWord with
  | nil => rfl
  | cons c cs ih =>
    obtain ⟨hlower, hpassed, hcased, _, hsigma⟩ := lowerAsciiChar_facts c
    have hat : lowerAt inWord (lowerAsciiChar c) (lowerAscii cs) = lowerAt inWord c cs := by
      unfold lowerAt
      rw [casedNext_lowerAscii, hlower]
      simp only [hsigma]
    have hafter : inWordAfter inWord (lowerAsciiChar c) = inWordAfter inWord c := by
      rw [inWordAfter, inWordAfter, hpassed, hcased]
    rw [lowerFrom_cons, ← hat, ← hafter, ← ih]
    rfl

/-- Lowering the ASCII letters first makes no difference. -/
theorem lower_lowerAscii (t : Text) : lower (lowerAscii t) = lower t := lowerFrom_lowerAscii

theorem trimmed_of_lowerAscii (h : Trimmed isBlank (lowerAscii t)) : Trimmed isBlank t := by
  have hblank : ∀ c, isBlank (lowerAsciiChar c) = isBlank c :=
    fun c => (lowerAsciiChar_facts c).2.2.2.1
  rw [lowerAscii_eq_map] at h
  constructor
  · intro c hc
    rw [← hblank]
    exact h.1 _ (by rw [List.head?_map, hc]; rfl)
  · intro c hc
    rw [← hblank]
    exact h.2 _ (by rw [List.getLast?_map, hc]; rfl)

/-! ## All letters against ASCII letters -/

theorem length_le_length_lowerFrom (inWord : Bool) (t : Text) :
    t.length ≤ (lowerFrom inWord t).length := by
  induction t generalizing inWord with
  | nil => exact Nat.le_refl 0
  | cons c cs ih =>
    have hat := List.length_pos_iff.mpr (lowerAt_ne_nil inWord c cs)
    have hrest := ih (inWordAfter inWord c)
    rw [lowerFrom_cons, List.length_append, List.length_cons]
    omega

/-- Lower-casing does what lowering the ASCII letters does just where the other
characters are their own lower case. -/
theorem lowerFrom_eq_lowerAscii_iff :
    lowerFrom inWord t = lowerAscii t ↔ ∀ c ∈ t, 128 ≤ c.toNat → Lowered c := by
  induction t generalizing inWord with
  | nil => exact iff_of_true rfl fun c hc => by cases hc
  | cons c cs ih =>
    have hcons : lowerAscii (c :: cs) = [lowerAsciiChar c] ++ lowerAscii cs := rfl
    rw [lowerFrom_cons, hcons, List.forall_mem_cons, ← @ih (inWordAfter inWord c)]
    constructor
    · intro h
      -- No character becomes less than one, so here each becomes just one.
      have hat : (lowerAt inWord c cs).length = [lowerAsciiChar c].length := by
        have hlength := congrArg List.length h
        have hpos := List.length_pos_iff.mpr (lowerAt_ne_nil inWord c cs)
        have hrest := length_le_length_lowerFrom (inWordAfter inWord c) cs
        rw [List.length_append, List.length_append, lowerAscii_eq_map, List.length_map] at hlength
        rw [List.length_singleton] at hlength ⊢
        omega
      obtain ⟨hc, hcs⟩ := List.append_inj h hat
      refine ⟨fun hascii => ?_, hcs⟩
      rw [lowerAsciiChar_of_not_ascii hascii] at hc
      rcases lowerAt_cases inWord c cs with hat | ⟨rfl, hat⟩
      · exact hat.symm.trans hc
      · rw [hat] at hc
        exact absurd hc (by decide)
    · rintro ⟨hc, hcs⟩
      have hat : lowerAt inWord c cs = [lowerAsciiChar c] := by
        rcases Nat.lt_or_ge c.toNat 128 with hascii | hascii
        · have hsigma : c ≠ 'Σ' := by
            rintro rfl
            exact absurd hascii (by decide)
          rw [lowerAt, if_neg fun hand => hsigma hand.1, lowerChar_of_ascii hascii]
        · have hsigma : c ≠ 'Σ' := by
            rintro rfl
            exact absurd (hc hascii) (by decide)
          rw [lowerAt, if_neg fun hand => hsigma hand.1, lowerAsciiChar_of_not_ascii hascii]
          exact hc hascii
      rw [hat, hcs]

end SpokenList.Text

namespace SpokenList.Ledger

/-- The name of a row is plain: the only blanks at its ends are spaces, and all
characters between them that are not ASCII are their own lower case. -/
def PlainName (name : Text) : Prop :=
  Text.trim (· == ' ') name = Text.strip name ∧
    ∀ c ∈ Text.strip name, 128 ≤ c.toNat → Text.Lowered c

instance (name : Text) : Decidable (PlainName name) := inferInstanceAs (Decidable (_ ∧ _))

theorem strip_trim_spaces (name : Text) :
    Text.strip (Text.trim (· == ' ') name) = Text.strip name := by
  refine Text.trim_trim_of_imp (fun c hc => ?_) name
  rw [eq_of_beq hc]
  decide

theorem trimmed_matchKey (name : Text) : Text.Trimmed Text.isBlank (Text.matchKey name) :=
  (Text.trimmed_trim Text.isBlank name).lower

/-- Where the key that a table makes of a name is a match key, the table has
stripped all blanks. -/
theorem trim_spaces_of_columnKey {name other : Text} (h : columnKey name = Text.matchKey other) :
    Text.trim (· == ' ') name = Text.strip name := by
  have hkey : Text.Trimmed Text.isBlank (columnKey name) := h ▸ trimmed_matchKey other
  have hstripped := Text.trim_eq_self_iff.mpr (Text.trimmed_of_lowerAscii hkey)
  exact hstripped.symm.trans (strip_trim_spaces name)

/-- **What a table finds for a name matches it.** -/
theorem matchKey_of_columnKey {name other : Text} (h : columnKey name = Text.matchKey other) :
    Text.matchKey name = Text.matchKey other :=
  calc Text.matchKey name = Text.lower (Text.trim (· == ' ') name) := by
        rw [Text.matchKey, trim_spaces_of_columnKey h]
    _ = Text.lower (columnKey name) := (Text.lower_lowerAscii _).symm
    _ = Text.lower (Text.matchKey other) := by rw [h]
    _ = Text.matchKey other := Text.lower_lower _

/-- **The two keys of a name are the same just where it is plain.** -/
theorem columnKey_eq_matchKey_iff {name : Text} :
    columnKey name = Text.matchKey name ↔ PlainName name := by
  constructor
  · intro h
    have htrim := trim_spaces_of_columnKey h
    refine ⟨htrim, ?_⟩
    rw [columnKey, htrim] at h
    exact Text.lowerFrom_eq_lowerAscii_iff.mp h.symm
  · rintro ⟨htrim, hlowered⟩
    rw [columnKey, htrim]
    exact (Text.lowerFrom_eq_lowerAscii_iff.mpr hlowered).symm

/-! ## Looking a row up -/

/-- Of two tests, one of which is stricter, the stricter finds the same row just
where the row that the other finds passes it. -/
theorem find?_eq_find?_iff {p q : Item → Bool} (h : ∀ i, p i = true → q i = true)
    (rows : List Item) :
    rows.find? p = rows.find? q ↔ ∀ i, rows.find? q = some i → p i = true := by
  constructor
  · intro heq i hi
    rw [← heq] at hi
    exact List.find?_some hi
  · intro hp
    cases hi : rows.find? q with
    | none =>
      rw [List.find?_eq_none] at hi ⊢
      exact fun i hmem hpi => hi i hmem (h i hpi)
    | some i =>
      obtain ⟨_, before, after, hrows, hbefore⟩ := List.find?_eq_some_iff_append.mp hi
      refine List.find?_eq_some_iff_append.mpr ⟨hp i hi, before, after, hrows, fun j hj => ?_⟩
      have hqj : q j = false := by simpa using hbefore j hj
      simpa using mt (h j) (by simp [hqj])

/-- **When a table and a plan mean the same row.**  For any content and any name,
the row that the table finds is the one at the position where the name matches
in the rows that the table shows, if that row has a plain name or there is no
such row, and only then. -/
theorem findRow?_eq_iff (l : Ledger) (name : Text) :
    let matched := (Item.findIndex? l.items name).bind (l.items[·]?)
    l.findRow? name = matched ↔ ∀ row, matched = some row → PlainName row.name := by
  intro matched
  have hmatched : matched = l.items.find? (Item.isNamed name) :=
    List.find?_eq_bind_findIdx?_getElem?.symm
  have himp : ∀ row : Item, (columnKey row.name == Text.matchKey name) = true →
      Item.isNamed name row = true := by
    intro row hrow
    exact beq_iff_eq.mpr (matchKey_of_columnKey (eq_of_beq hrow))
  rw [hmatched, findRow?, find?_eq_find?_iff himp]
  refine forall_congr' fun row => forall_congr' fun hrow => ?_
  have hnamed : Item.isNamed name row = true := List.find?_some hrow
  have hkey : Text.matchKey row.name = Text.matchKey name := eq_of_beq hnamed
  rw [beq_iff_eq, ← hkey, columnKey_eq_matchKey_iff]

/-- A capital with an accent, which the table does not lower. -/
theorem findRow?_ne_accentedCapital :
    let l := Ledger.ofItems [⟨1, "CRÈME", 1, none, 0⟩]
    l.findRow? "crème" ≠ (Item.findIndex? l.items "crème").bind (l.items[·]?) := by
  decide +kernel

end SpokenList.Ledger
