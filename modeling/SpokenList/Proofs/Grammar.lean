import SpokenList.Proofs.Beginnings

/-! # The grammar of commands

What kind of command a text is depends on its first words only.  The grammar says it
token by token: `Removes` for a command to remove and `Changes` for one to adjust.
`Utterance.intent` reads the same off the characters, phrase by phrase and verb by
verb, and recognises exactly this grammar (`Utterance.compile_by_grammar`).

The normal form of a command is made of words with single spaces between them, so a
phrase of two words stands in it like a word (`afterPhrase?_eq_some_iff`), and a verb
with a blank after it is the first word of several (`afterVerb?_append`).
-/
namespace SpokenList.Utterance

open Text (isBlank startsBlank dropBlanks IsField)

variable {limits : Limits} {rest s t token items v w : Text} {verbs ws : List Text} {sign : Int}

/-! ## The grammar -/

/-- A command to remove: one of the phrases, where no word goes on, and the rest. -/
def Removes (t rest : Text) : Prop :=
  ∃ w ∈ removalOpenings, t = w ++ rest ∧ Text.startsWord rest = false

/-- A number word, or decimal digits of any script and nothing else. -/
def SaysQuantity (token : Text) : Prop :=
  token ∈ spokenNumbers ∨ token ≠ [] ∧ ∀ c ∈ token, Text.isDecimalDigit c = true

/-- The verbs of adjusting, with the sign of the change. -/
def signedVerbs : List (Text × Int) :=
  [("increase", 1), ("plus", 1), ("decrease", -1), ("subtract", -1), ("minus", -1)]

/-- A command to adjust: a verb, a quantity, and one token at least of what is to be
adjusted. -/
def Changes (t : Text) (sign : Int) (token items : Text) : Prop :=
  ∃ verb others, Text.words t = verb :: token :: others ∧ others ≠ [] ∧
    (verb, sign) ∈ signedVerbs ∧ SaysQuantity token ∧ items = Text.join [' '] others

/-- The names of the items that the segments of a text are about, as far as a name is
left of them. -/
def itemNames (t : Text) : List Text := ((segments t).map itemName).filter (· ≠ [])

/-! ## Commands to remove -/

/-- Where at most one value can be found, any that is there is found. -/
theorem findSome?_eq_some_iff {α β : Type} {f : α → Option β} {xs : List α} {b : β}
    (hunique : ∀ x ∈ xs, ∀ y ∈ xs, ∀ a b, f x = some a → f y = some b → a = b) :
    xs.findSome? f = some b ↔ ∃ x ∈ xs, f x = some b := by
  refine ⟨List.exists_of_findSome?_eq_some, fun ⟨x, hx, hb⟩ => ?_⟩
  cases hfound : xs.findSome? f with
  | none => rw [List.findSome?_eq_none_iff.mp hfound x hx] at hb; cases hb
  | some a =>
    obtain ⟨y, hy, ha⟩ := List.exists_of_findSome?_eq_some hfound
    rw [hunique y hy x hx a b ha hb]

/-- No phrase of removing begins another, so only one of them can be read. -/
theorem removes_unique {r r' : Text} (h : Removes t r) (h' : Removes t r') : r = r' := by
  obtain ⟨w, hw, rfl, -⟩ := h
  obtain ⟨w', hw', heq, -⟩ := h'
  have hapart : ∀ w ∈ removalOpenings, ∀ w' ∈ removalOpenings, w <+: w' → w = w' := by decide
  obtain rfl : w = w' := by
    rcases List.prefix_or_prefix_of_prefix (List.prefix_append w r) ⟨r', heq.symm⟩ with h | h
    · exact hapart w hw w' hw' h
    · exact (hapart w' hw' w hw h).symm
  exact List.append_cancel_left heq

theorem afterPhrase?_eq_some_iff (ht : Text.SingleSpaced t) :
    afterPhrase? removalPhrases t = some rest ↔ Removes t rest := by
  have hread (w r : Text) : (Text.after? w t).filter (!Text.startsWord ·) = some r ↔
      t = w ++ r ∧ Text.startsWord r = false := by
    rw [Option.filter_eq_some_iff, Text.after?_eq_some_iff, Bool.not_eq_true', eq_comm]
  rw [afterPhrase?_removal ht, findSome?_eq_some_iff]
  · simp only [hread, Removes]
  · intro w hw w' hw' r r' h h'
    exact removes_unique ⟨w, hw, (hread w r).mp h⟩ ⟨w', hw', (hread w' r').mp h'⟩

theorem afterPhrase?_eq_none (ht : Text.SingleSpaced t) (h : ∀ rest, ¬ Removes t rest) :
    afterPhrase? removalPhrases t = none :=
  Option.eq_none_iff_forall_ne_some.mpr fun rest hread =>
    h rest ((afterPhrase?_eq_some_iff ht).mp hread)

/-! ## Commands to adjust -/

theorem isQuantityWord_iff : isQuantityWord token = true ↔ SaysQuantity token := by
  have hnumber : (numberWord? token).isSome = true ↔ token ∈ spokenNumbers := by
    simp only [Option.isSome_iff_exists, numberWord?_eq_some_iff, exists_isNumberWord_iff]
  rw [isQuantityWord, Bool.or_eq_true, hnumber, Bool.and_eq_true, List.all_eq_true, SaysQuantity,
    or_comm]
  simp

theorem isField_of_mem_changeVerbs (hv : v ∈ changeVerbs) : IsField isBlank v :=
  (solid_of_mem_changeVerbs hv : Solid .standard v).isField_isBlank

theorem mem_signedVerbs : (v, sign) ∈ signedVerbs ↔
    v ∈ increaseVerbs ∧ sign = 1 ∨ v ∈ decreaseVerbs ∧ sign = -1 := by
  have hsigned : signedVerbs = increaseVerbs.map (·, 1) ++ decreaseVerbs.map (·, -1) := rfl
  rw [hsigned]
  simp [eq_comm]

/-- The first word of some stands before the others, with a space if there are any. -/
theorem join_cons_afterSpace (hws : ∀ v ∈ ws, IsField isBlank v) :
    Text.join [' '] (w :: ws) = w ++ afterSpace (Text.join [' '] ws) := by
  by_cases hnil : ws = []
  · rw [hnil, Text.join_singleton]
    exact (List.append_nil w).symm
  · have hne : Text.join [' '] ws ≠ [] := mt (Text.join_eq_nil_iff hws).mp hnil
    rw [Text.join_cons w hnil, afterSpace, if_neg hne]

theorem startsBlank_afterSpace : startsBlank (afterSpace s) = true ↔ s ≠ [] := by
  unfold afterSpace
  by_cases hs : s = []
  · simp [hs, startsBlank]
  · rw [if_neg hs]
    exact ⟨fun _ => hs, fun _ => Text.isBlank_of_mem_space ' ' (by simp)⟩

theorem head?_afterSpace (s : Text) : ∀ c ∈ (afterSpace s).head?, isBlank c = true := by
  unfold afterSpace
  split
  · nofun
  · exact fun c hc => Text.isBlank_of_mem_space c (by simpa [eq_comm] using hc)

/-- A verb is read where it is the first word and there are more. -/
theorem afterVerb?_append (hverbs : ∀ v ∈ verbs, IsField isBlank v) (hw : IsField isBlank w)
    (hs : ∀ c ∈ s.head?, isBlank c = false) :
    afterVerb? verbs (w ++ afterSpace s) = some rest ↔ w ∈ verbs ∧ s ≠ [] ∧ rest = s := by
  have hread : ∀ v ∈ verbs, ∀ r, ((Text.after? v (w ++ afterSpace s)).bind fun after =>
      if startsBlank after then some (dropBlanks after) else none) = some r ↔
      v = w ∧ s ≠ [] ∧ r = s := by
    intro v hv r
    rw [Option.bind_eq_some_iff]
    constructor
    · rintro ⟨after, hafter, hr⟩
      split at hr
      · next hblank =>
        have hhead : ∀ c ∈ after.head?, isBlank c = true := by
          obtain ⟨b, others, rfl, hb⟩ := Text.startsBlank_eq_true_iff.mp hblank
          exact fun c hc => Option.some.inj hc ▸ hb
        obtain ⟨rfl, rfl⟩ := (hverbs v hv).append_inj hw hhead (head?_afterSpace s)
          (Text.after?_eq_some_iff.mp hafter)
        rw [dropBlanks_afterSpace hs] at hr
        exact ⟨rfl, startsBlank_afterSpace.mp hblank, (Option.some.inj hr).symm⟩
      · cases hr
    · rintro ⟨rfl, hne, rfl⟩
      refine ⟨afterSpace r, Text.after?_append_self v _, ?_⟩
      rw [if_pos (startsBlank_afterSpace.mpr hne), dropBlanks_afterSpace hs]
  have hfind : afterVerb? verbs (w ++ afterSpace s) = some rest ↔
      ∃ v ∈ verbs, v = w ∧ s ≠ [] ∧ rest = s := by
    refine (findSome?_eq_some_iff ?_).trans
      (exists_congr fun v => and_congr_right fun hv => hread v hv rest)
    intro v hv v' hv' r r' h h'
    obtain ⟨-, -, rfl⟩ := (hread v hv r).mp h
    exact ((hread v' hv' r').mp h').2.2.symm
  rw [hfind]
  exact ⟨fun ⟨v, hv, heq, h⟩ => ⟨heq ▸ hv, h⟩, fun ⟨hv, h⟩ => ⟨w, hv, rfl, h⟩⟩

/-- A word at the start of a text reaches up to the first blank. -/
theorem takeWhile_append_afterSpace (hw : IsField isBlank w) (s : Text) :
    (w ++ afterSpace s).takeWhile (!isBlank ·) = w ∧
      (w ++ afterSpace s).dropWhile (!isBlank ·) = afterSpace s := by
  have hall : ∀ c ∈ w, (!isBlank c) = true := fun c hc => by simp [hw.2 c hc]
  have hspace : (!isBlank ' ') = false := by decide
  rw [List.takeWhile_append_of_pos hall, List.dropWhile_append_of_pos hall, afterSpace]
  split
  · simp
  · simp [hspace]

theorem head?_join (hws : ∀ v ∈ ws, IsField isBlank v) :
    ∀ c ∈ (Text.join [' '] ws).head?, isBlank c = false := (Text.singleSpaced_join hws).2.1

/-- After the verb stand the quantity and at least one more word. -/
theorem adjustment?_append (hverbs : ∀ v ∈ verbs, IsField isBlank v) (hv : IsField isBlank v)
    (hws : ∀ w ∈ ws, IsField isBlank w) :
    adjustment? verbs (v ++ afterSpace (Text.join [' '] ws)) = some (token, items) ↔
      ∃ others, ws = token :: others ∧ others ≠ [] ∧ v ∈ verbs ∧ SaysQuantity token ∧
        items = Text.join [' '] others := by
  have hafter (rest : Text) : afterVerb? verbs (v ++ afterSpace (Text.join [' '] ws)) = some rest ↔
      v ∈ verbs ∧ Text.join [' '] ws ≠ [] ∧ rest = Text.join [' '] ws :=
    afterVerb?_append hverbs hv (head?_join hws)
  cases ws with
  | nil =>
    constructor
    · intro h
      obtain ⟨rest, hrest, -⟩ := Option.bind_eq_some_iff.mp h
      exact absurd rfl ((hafter rest).mp hrest).2.1
    · rintro ⟨_, h, _⟩
      cases h
  | cons w others =>
    obtain ⟨hw, hothers⟩ := List.forall_mem_cons.mp hws
    have htrimmed := head?_join hothers
    obtain ⟨htake, hdrop⟩ := takeWhile_append_afterSpace hw (Text.join [' '] others)
    constructor
    · intro h
      obtain ⟨rest, hrest, h⟩ := Option.bind_eq_some_iff.mp h
      obtain ⟨hmem, -, rfl⟩ := (hafter rest).mp hrest
      rw [join_cons_afterSpace hothers] at h
      simp only [htake, hdrop] at h
      split at h
      · next hread =>
        obtain ⟨hquantity, hblank⟩ := Bool.and_eq_true_iff.mp hread
        obtain ⟨rfl, rfl⟩ := Prod.mk.inj (Option.some.inj h)
        have hne : others ≠ [] :=
          mt (Text.join_eq_nil_iff hothers).mpr (startsBlank_afterSpace.mp hblank)
        exact ⟨others, rfl, hne, hmem, isQuantityWord_iff.mp hquantity,
          dropBlanks_afterSpace htrimmed⟩
      · cases h
    · rintro ⟨_, heq, hne, hmem, hquantity, rfl⟩
      obtain ⟨rfl, rfl⟩ := List.cons.inj heq
      have hblank := startsBlank_afterSpace.mpr (mt (Text.join_eq_nil_iff hothers).mp hne)
      refine Option.bind_eq_some_iff.mpr
        ⟨_, (hafter _).mpr ⟨hmem, mt (Text.join_eq_nil_iff hws).mp (List.cons_ne_nil _ _), rfl⟩, ?_⟩
      rw [join_cons_afterSpace hothers]
      simp only [htake, hdrop]
      rw [isQuantityWord_iff.mpr hquantity, hblank, dropBlanks_afterSpace htrimmed]
      rfl

/-- **An adjustment is read token by token.** -/
theorem adjustment?_eq_some_iff (hverbs : verbs ⊆ changeVerbs) (ht : Text.collapse t = t) :
    adjustment? verbs t = some (token, items) ↔
      ∃ v others, Text.words t = v :: token :: others ∧ others ≠ [] ∧ v ∈ verbs ∧
        SaysQuantity token ∧ items = Text.join [' '] others := by
  have hwords : ∀ w ∈ Text.words t, IsField isBlank w := fun w hw => (Text.mem_fields hw).1
  rw [← ht, Text.words_collapse, Text.collapse]
  cases hread : Text.words t with
  | nil =>
    constructor
    · intro h
      obtain ⟨v, -, rest, hnil, hblank⟩ := opensChange_iff.mp (opensChange_of_adjustment? hverbs h)
      obtain ⟨-, rfl⟩ := List.append_eq_nil_iff.mp hnil.symm
      cases hblank
    · rintro ⟨_, _, h, _⟩
      cases h
  | cons v ws =>
    rw [hread] at hwords
    obtain ⟨hv, hws⟩ := List.forall_mem_cons.mp hwords
    rw [join_cons_afterSpace hws,
      adjustment?_append (fun u hu => isField_of_mem_changeVerbs (hverbs hu)) hv hws]
    constructor
    · rintro ⟨others, rfl, h⟩
      exact ⟨v, others, rfl, h⟩
    · rintro ⟨_, others, heq, h⟩
      obtain ⟨rfl, rfl⟩ := List.cons.inj heq
      exact ⟨others, rfl, h⟩

/-! ## Intents -/

theorem intent_of_removes (ht : Text.SingleSpaced t) (h : Removes t rest) :
    intent t = .remove (Text.strip rest) := by
  rw [intent, (afterPhrase?_eq_some_iff ht).mpr h]

theorem changes_iff (ht : Text.collapse t = t) : Changes t sign token items ↔
    adjustment? increaseVerbs t = some (token, items) ∧ sign = 1 ∨
      adjustment? decreaseVerbs t = some (token, items) ∧ sign = -1 := by
  rw [adjustment?_eq_some_iff (List.subset_append_left _ _) ht,
    adjustment?_eq_some_iff (List.subset_append_right _ _) ht]
  simp only [Changes, mem_signedVerbs]
  constructor
  · rintro ⟨v, others, hwords, hne, ⟨hv, hsign⟩ | ⟨hv, hsign⟩, h⟩
    · exact Or.inl ⟨⟨v, others, hwords, hne, hv, h⟩, hsign⟩
    · exact Or.inr ⟨⟨v, others, hwords, hne, hv, h⟩, hsign⟩
  · rintro (⟨⟨v, others, hwords, hne, hv, h⟩, hsign⟩ | ⟨⟨v, others, hwords, hne, hv, h⟩, hsign⟩)
    · exact ⟨v, others, hwords, hne, Or.inl ⟨hv, hsign⟩, h⟩
    · exact ⟨v, others, hwords, hne, Or.inr ⟨hv, hsign⟩, h⟩

/-- No verb raises and lowers. -/
theorem adjustment?_increase_eq_none {r : Text × Text} (ht : Text.collapse t = t)
    (h : adjustment? decreaseVerbs t = some r) : adjustment? increaseVerbs t = none := by
  obtain ⟨v, others, hwords, -, hv, -⟩ :=
    (adjustment?_eq_some_iff (List.subset_append_right _ _) ht).mp h
  refine Option.eq_none_iff_forall_ne_some.mpr fun r' h' => ?_
  obtain ⟨v', others', hwords', -, hv', -⟩ :=
    (adjustment?_eq_some_iff (List.subset_append_left _ _) ht).mp h'
  obtain ⟨rfl, -⟩ := List.cons.inj (hwords.symm.trans hwords')
  have hapart : ∀ v ∈ decreaseVerbs, v ∉ increaseVerbs := by decide
  exact hapart v hv hv'

theorem intent_of_changes (ht : Text.collapse t = t) (hnot : ∀ rest, ¬ Removes t rest)
    (h : Changes t sign token items) :
    ∃ up, intent t = .adjust up token items ∧ sign = if up then 1 else -1 := by
  have hremoval := afterPhrase?_eq_none (Text.collapse_eq_self_iff.mp ht).1 hnot
  rcases (changes_iff ht).mp h with ⟨hread, hsign⟩ | ⟨hread, hsign⟩
  · exact ⟨true, by rw [intent, hremoval, hread], hsign⟩
  · exact ⟨false, by rw [intent, hremoval, adjustment?_increase_eq_none ht hread, hread], hsign⟩

theorem intent_of_neither (ht : Text.collapse t = t) (hnot : ∀ rest, ¬ Removes t rest)
    (h : ∀ sign token items, ¬ Changes t sign token items) : intent t = .add (dropSoftener t) := by
  have hremoval := afterPhrase?_eq_none (Text.collapse_eq_self_iff.mp ht).1 hnot
  have hincrease : adjustment? increaseVerbs t = none :=
    Option.eq_none_iff_forall_ne_some.mpr fun (token, items) hread =>
      h 1 token items ((changes_iff ht).mpr (Or.inl ⟨hread, rfl⟩))
  have hdecrease : adjustment? decreaseVerbs t = none :=
    Option.eq_none_iff_forall_ne_some.mpr fun (token, items) hread =>
      h (-1) token items ((changes_iff ht).mpr (Or.inr ⟨hread, rfl⟩))
  rw [intent, hremoval, hincrease, hdecrease]

/-! ## Plans -/

/-- An entry for every segment of which a name is left. -/
theorem filterMap_itemName {α : Type} (f : Text → α) (t : Text) :
    (segments t).filterMap (fun s => if (itemName s).isEmpty then none else some (f (itemName s))) =
      (itemNames t).map f := by
  have hname (s : Text) : (if (itemName s).isEmpty then none else some (f (itemName s))) =
      if itemName s ≠ [] then some (f (itemName s)) else none := by
    by_cases h : itemName s = [] <;> simp [h]
  rw [itemNames, ← filterMap_ite, List.filterMap_map]
  simp only [hname, Function.comp_def]

theorem signedDelta_eq_mul (limits : Limits) (up : Bool) (token : Text) :
    signedDelta limits up token = (if up then 1 else -1) * (quantity? limits token).getD 1 := by
  cases up <;> simp [signedDelta]

/-- **The compiler recognises exactly the grammar.**  A command that opens with a
phrase of removing, where no word goes on, removes one item for every segment of the
rest that has a name, and does nothing else; the blanks around the rest are no part of
it.  Otherwise a command whose first word is a verb of adjusting, whose second says a
quantity, and which has a third, adjusts one item for every segment of what follows
that has a name, and does nothing else; every change has the sign of the verb and the
size that the quantity resolves to, or one if it resolves to nothing.  Any other
command neither removes nor adjusts. -/
theorem compile_by_grammar (limits : Limits) (utterance : Text) :
    let t := normalize utterance
    let plan := compile limits utterance
    (∀ rest, Removes t rest → plan.add = [] ∧ plan.adjust = [] ∧
      plan.remove = (itemNames (Text.strip rest)).map fun name => ⟨name⟩) ∧
    ((∀ rest, ¬ Removes t rest) → ∀ sign token items, Changes t sign token items →
      plan.add = [] ∧ plan.remove = [] ∧
        plan.adjust = (itemNames items).map fun name =>
          ⟨name, sign * (quantity? limits token).getD 1⟩) ∧
    ((∀ rest, ¬ Removes t rest) → (∀ sign token items, ¬ Changes t sign token items) →
      plan.remove = [] ∧ plan.adjust = []) := by
  intro t plan
  have hplan : plan = (intent t).plan limits utterance := compile_eq_plan limits utterance
  have ht : Text.collapse t = t := collapse_normalize utterance
  refine ⟨fun rest h => ?_, fun hnot sign token items h => ?_, fun hnot hnone => ?_⟩
  · rw [hplan, intent_of_removes (singleSpaced_normalize utterance) h]
    exact ⟨rfl, rfl, filterMap_itemName RemoveEntry.mk _⟩
  · obtain ⟨up, hintent, rfl⟩ := intent_of_changes ht hnot h
    rw [hplan, hintent, ← signedDelta_eq_mul]
    exact ⟨rfl, rfl, filterMap_itemName (AdjustEntry.mk · (signedDelta limits up token)) items⟩
  · rw [hplan, intent_of_neither ht hnot hnone]
    exact ⟨rfl, rfl⟩

/-- One command of each kind: punctuation ends a phrase, a digit of another script
counts as a quantity but resolves to none, and a longer word is no phrase. -/
theorem compile_by_grammar_nearMisses :
    Removes (normalize "Take\u3000OFF, milk and") ", milk and" ∧
      (compile .standard "Take\u3000OFF, milk and").remove = [⟨"milk and"⟩] ∧
      Changes (normalize "minus \u0663 of milk, some AND eggs") (-1) "\u0663"
        "of milk, some and eggs" ∧
      (compile .standard "minus \u0663 of milk, some AND eggs").adjust =
        [⟨"milk", -1⟩, ⟨"eggs", -1⟩] ∧
      (compile .standard "dropped 2 milk").remove = [] ∧
      (compile .standard "dropped 2 milk").adjust = [] := by
  have hremoves : Removes (normalize "Take\u3000OFF, milk and") ", milk and" :=
    ⟨"take off", by decide, by decide +kernel, by decide +kernel⟩
  have hchanges : Changes (normalize "minus \u0663 of milk, some AND eggs") (-1) "\u0663"
      "of milk, some and eggs" :=
    ⟨"minus", ["of", "milk,", "some", "and", "eggs"], by decide +kernel, by simp, by decide,
      isQuantityWord_iff.mp (by decide +kernel), by decide⟩
  have hnot {t : Text} (h : ∀ w ∈ removalOpenings,
      w <+: t → Text.startsWord (t.drop w.length) = true) : ∀ rest, ¬ Removes t rest := by
    rintro rest ⟨w, hw, rfl, hrest⟩
    have hword := h w hw (List.prefix_append w rest)
    rw [List.drop_left, hrest] at hword
    cases hword
  have hnone : ∀ sign token items, ¬ Changes (normalize "dropped 2 milk") sign token items := by
    rintro sign token items ⟨v, others, hwords, -, hv, -⟩
    have hfirst : (Text.words (normalize "dropped 2 milk")).head? = some "dropped" := by
      decide +kernel
    rw [hwords] at hfirst
    obtain rfl := Option.some.inj hfirst
    rcases mem_signedVerbs.mp hv with ⟨hmem, -⟩ | ⟨hmem, -⟩
    · exact absurd hmem (by decide)
    · exact absurd hmem (by decide)
  obtain ⟨hremove, -, -⟩ := compile_by_grammar .standard "Take\u3000OFF, milk and"
  obtain ⟨-, hadjust, -⟩ := compile_by_grammar .standard "minus \u0663 of milk, some AND eggs"
  obtain ⟨-, -, hneither⟩ := compile_by_grammar .standard "dropped 2 milk"
  refine ⟨hremoves, ?_, hchanges, ?_, hneither (hnot (by decide +kernel)) hnone⟩
  · rw [(hremove _ hremoves).2.2]
    decide +kernel
  · rw [(hadjust (hnot (by decide +kernel)) _ _ _ hchanges).2.2]
    decide +kernel

end SpokenList.Utterance
