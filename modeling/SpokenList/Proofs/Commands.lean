import SpokenList.Proofs.Grammar

/-! # Commands that are spelled out

An opening of removing, or a verb of adjusting and a quantity, is read off the start of
a command whatever follows it (`compile_removal`, `compile_change`).  What follows may be
an enumeration of names that need no cleaning (`WholeName`), in which a comma or a
joining word stands between any two of them; these names are then what the command is
about, in their order (`itemNames_enumerate`).

So the plan for a command that is spelled out this way says what was said
(`compile_wholeNames`).
-/
namespace SpokenList.Utterance

open Text (isBlank)

variable {limits : Limits} {first t token v : Text} {rest : List (Joiner × Text)}
  {n sign : Int}

/-! ## Whole names -/

/-- An unbroken name that cleaning leaves as it is. -/
structure WholeName (name : Text) : Prop extends Unbroken name where
  itemName : itemName name = name

instance (name : Text) : Decidable (WholeName name) :=
  decidable_of_iff (name ≠ [] ∧ normalize name = name ∧ ',' ∉ name ∧
      (Text.words name).all (!joiningWords.contains ·) ∧ itemName name = name)
    ⟨fun ⟨hne, hform, hcomma, hjoiner, hname⟩ =>
        ⟨⟨hne, hform, hcomma, by simpa using hjoiner⟩, hname⟩,
      fun h => ⟨h.ne_nil, h.normalize, h.noComma, by simpa using h.noJoiner, h.itemName⟩⟩

theorem itemNames_eq_self {names : List Text} (hsegments : segments t = names)
    (h : ∀ name ∈ names, WholeName name) : itemNames t = names := by
  rw [itemNames, hsegments, List.map_congr_left fun name hname => (h name hname).itemName,
    List.map_id', List.filter_eq_self]
  exact fun name hname => decide_eq_true (h name hname).ne_nil

/-- **An enumeration is about the names in it.** -/
theorem itemNames_enumerate (hfirst : WholeName first)
    (hrest : ∀ x ∈ rest, WholeName x.2 ∧ x.1 ≠ .space) :
    itemNames (normalize (enumerate first rest)) = first :: rest.map Prod.snd := by
  refine itemNames_eq_self (segments_enumerate_of_ne_space hfirst.toUnbroken
    (fun x hx => (hrest x hx).1.toUnbroken) fun x hx => (hrest x hx).2) ?_
  exact List.forall_mem_cons.mpr ⟨hfirst, List.forall_mem_map.mpr fun x hx => (hrest x hx).1⟩

/-! ## Openings -/

/-- **After an opening of removing, the items are removed that the rest is about.** -/
theorem compile_removal (limits : Limits) (hv : v ∈ removalOpenings) (t : Text) :
    compile limits (v ++ ' ' :: t) =
      { Plan.empty (v ++ ' ' :: t) with
        remove := (itemNames (normalize t)).map RemoveEntry.mk } := by
  have hall : ∀ v ∈ removalOpenings, v ≠ [] ∧ normalize v = v := by decide +kernel
  obtain ⟨hne, hform⟩ := hall v hv
  have hnormal : normalize (v ++ ' ' :: t) = v ++ afterSpace (normalize t) := by
    rw [normalize_append_space (by rwa [hform]), hform]
  have hremoves : Removes (normalize (v ++ ' ' :: t)) (afterSpace (normalize t)) :=
    ⟨v, hv, hnormal, startsWord_afterSpace _⟩
  rw [compile_eq_plan, intent_of_removes (singleSpaced_normalize _) hremoves,
    strip_afterSpace (trimmed_normalize t), Intent.plan, ← filterMap_itemName]
  rfl

/-- No verb of adjusting can be taken for an opening of removing. -/
theorem not_removes_of_mem_changeVerbs (hv : v ∈ changeVerbs) (t : Text) :
    ∀ rest, ¬ Removes (v ++ t) rest := by
  have hapart : ∀ v ∈ changeVerbs, ∀ w ∈ removalOpenings, ¬ v <+: w ∧ ¬ w <+: v := by decide
  rintro rest ⟨w, hw, hsplit, -⟩
  obtain ⟨hvw, hwv⟩ := hapart v hv w hw
  rcases List.prefix_or_prefix_of_prefix (List.prefix_append v t) ⟨rest, hsplit.symm⟩ with h | h
  · exact hvw h
  · exact hwv h

/-- What is read as a quantity can stand where an adjustment has one. -/
theorem saysQuantity_of_quantity? (h : quantity? limits token = some n) : SaysQuantity token := by
  rcases quantity?_eq_some_iff.mp h with ⟨⟨hne, hdigits, -⟩, -⟩ | hword
  · exact Or.inr ⟨hne, fun c hc => Text.of_isAsciiDigit (P := (Text.isDecimalDigit · = true))
      (by decide +kernel) (hdigits c hc)⟩
  · exact Or.inl hword.mem_spokenNumbers

/-- A verb of adjusting and a quantity are in normal form. -/
theorem normalize_change (hv : v ∈ changeVerbs) (htoken : quantity? limits token = some n)
    (ht : normalize t ≠ []) :
    normalize (v ++ ' ' :: (token ++ ' ' :: t)) = v ++ ' ' :: (token ++ ' ' :: normalize t) := by
  have hall : ∀ v ∈ changeVerbs, v ≠ [] ∧ normalize v = v := by decide +kernel
  obtain ⟨hne, hform⟩ := hall v hv
  have hquantity := unbroken_of_quantity? htoken
  rw [normalize_append_space (by rwa [hform]), hform,
    normalize_append_space (by rw [hquantity.normalize]; exact hquantity.ne_nil),
    hquantity.normalize, afterSpace, afterSpace, if_neg ht, if_neg (by simp)]

/-- A verb of adjusting and a quantity, with anything after them, make a command to adjust. -/
theorem changes_of_quantity? (hv : (v, sign) ∈ signedVerbs)
    (htoken : quantity? limits token = some n) (ht : Text.collapse t = t) (hne : t ≠ []) :
    Changes (v ++ ' ' :: (token ++ ' ' :: t)) sign token t := by
  have hverb : v ∈ changeVerbs := by
    have hall : ∀ x ∈ signedVerbs, x.1 ∈ changeVerbs := by decide
    exact hall _ hv
  refine ⟨v, Text.words t, ?_, ?_, hv, saysQuantity_of_quantity? htoken, ht.symm⟩
  · have hspace : isBlank ' ' = true := by decide
    rw [(isField_of_mem_changeVerbs hverb).words_append_cons hspace,
      (isField_of_quantity? htoken).words_append_cons hspace]
  · intro hnil
    rw [Text.collapse, hnil] at ht
    exact hne ht.symm

/-- **After a verb of adjusting and a quantity, the items are adjusted that the rest is
about**, by so much and with the sign of the verb. -/
theorem compile_change (hv : (v, sign) ∈ signedVerbs) (htoken : quantity? limits token = some n)
    (ht : normalize t ≠ []) :
    compile limits (v ++ ' ' :: (token ++ ' ' :: t)) =
      { Plan.empty (v ++ ' ' :: (token ++ ' ' :: t)) with
        adjust := (itemNames (normalize t)).map fun name => ⟨name, sign * n⟩ } := by
  have hall : ∀ x ∈ signedVerbs, x.1 ∈ changeVerbs := by decide
  have hnormal := normalize_change (hall _ hv) htoken ht
  have hchanges := changes_of_quantity? hv htoken (collapse_normalize t) ht
  have hnot := not_removes_of_mem_changeVerbs (hall _ hv) (' ' :: (token ++ ' ' :: normalize t))
  rw [← hnormal] at hchanges hnot
  obtain ⟨up, hintent, hsign⟩ := intent_of_changes (collapse_normalize _) hnot hchanges
  have hdelta : signedDelta limits up token = sign * n := by
    rw [signedDelta_eq_mul, htoken, hsign, Option.getD_some]
  rw [compile_eq_plan, hintent, Intent.plan, hdelta,
    ← filterMap_itemName fun name => AdjustEntry.mk name (sign * n)]
  rfl

/-! ## Enumerations -/

/-- **What was spelled out is compiled.**  Let a command enumerate whole names, with a
comma or a joining word between any two.  After an opening of removing exactly these
names are removed, in this order, and nothing else is asked for.  After a verb of
adjusting and a number within the limit, in digits or in a word, exactly these names
are adjusted, in this order, each by the number up or down as the verb says, and
nothing else is asked for. -/
theorem compile_wholeNames (limits : Limits) {first : Text} {rest : List (Joiner × Text)}
    (hfirst : WholeName first)
    (hrest : ∀ x ∈ rest, WholeName x.2 ∧ x.1 ≠ .space) :
    let names := first :: rest.map Prod.snd
    (∀ verb ∈ removalOpenings,
      let command := verb ++ ' ' :: enumerate first rest
      compile limits command = ⟨[], names.map RemoveEntry.mk, [], command⟩) ∧
    ∀ verb sign token n, (verb, sign) ∈ signedVerbs → Denotes token n → 1 ≤ n →
      n ≤ limits.quantity →
      let command := verb ++ ' ' :: (token ++ ' ' :: enumerate first rest)
      compile limits command =
        ⟨[], [], names.map fun name => ⟨name, sign * n⟩, command⟩ := by
  intro names
  have hnames : itemNames (normalize (enumerate first rest)) = names :=
    itemNames_enumerate hfirst hrest
  have hne : normalize (enumerate first rest) ≠ [] := by
    rw [normalize_enumerate hfirst.toUnbroken fun x hx => (hrest x hx).1.toUnbroken]
    exact enumerate_ne_nil hfirst.ne_nil rest
  constructor
  · intro verb hverb command
    rw [← hnames]
    exact compile_removal limits hverb _
  · intro verb sign token n hverb hdenotes hone hle command
    rw [← hnames]
    exact compile_change hverb (quantity?_of_denotes hdenotes hone hle) hne

/-- A name may have digits and a note in it, or begin like another command. -/
theorem compile_wholeNames_mixedJoiners :
    let rest : List (Joiner × Text) :=
      [(.plus, "7up (cold)"), (.comma, "ραχάτ λουκούμι"), (.and, "two remove 3")]
    let said : Text := "sun-dried tomatoes plus 7up (cold), ραχάτ λουκούμι and two remove 3"
    said = enumerate "sun-dried tomatoes" rest ∧ WholeName "sun-dried tomatoes" ∧
      (∀ x ∈ rest, WholeName x.2 ∧ x.1 ≠ .space) ∧
      compile .standard ("take off " ++ said) =
        ⟨[], [⟨"sun-dried tomatoes"⟩, ⟨"7up (cold)"⟩, ⟨"ραχάτ λουκούμι"⟩, ⟨"two remove 3"⟩], [],
          "take off " ++ said⟩ ∧
      Denotes "0999" 999 ∧ (1 : Int) ≤ 999 ∧ 999 ≤ Limits.standard.quantity ∧
      compile .standard ("minus 0999 " ++ said) =
        ⟨[], [], [⟨"sun-dried tomatoes", -999⟩, ⟨"7up (cold)", -999⟩, ⟨"ραχάτ λουκούμι", -999⟩,
          ⟨"two remove 3", -999⟩], "minus 0999 " ++ said⟩ := by
  intro rest said
  have hsaid : said = enumerate "sun-dried tomatoes" rest := by decide +kernel
  have hfirst : WholeName "sun-dried tomatoes" := by decide +kernel
  have hrest : ∀ x ∈ rest, WholeName x.2 ∧ x.1 ≠ .space := by decide +kernel
  have hdenotes : Denotes "0999" 999 :=
    Or.inl ⟨by decide, List.all_eq_true.mp (by decide), by decide +kernel⟩
  have hminus : (("minus" : Text), (-1 : Int)) ∈ signedVerbs := by decide
  obtain ⟨hremove, hadjust⟩ := compile_wholeNames .standard hfirst hrest
  rw [← hsaid] at hremove hadjust
  exact ⟨hsaid, hfirst, hrest, hremove "take off" (by decide), hdenotes, by decide, by decide,
    hadjust "minus" (-1) "0999" 999 hminus hdenotes (by decide) (by decide)⟩

end SpokenList.Utterance
