import SpokenList.Proofs.Lowering
import SpokenList.Proofs.Segments
import SpokenList.Utterance.Compile

/-! # Commands by their opening words

A command that opens with `add` or `remove` is about what follows that word, in
normal form, whatever it is (`compile_add`, `compile_remove`).
-/
namespace SpokenList.Utterance

open Text (isBlank dropBlanks strip Lowered Trimmed)

variable {limits : Limits} {c : Char} {s t w : Text}

/-! ## Normal form -/

/-- The text after a space, unless it is empty. -/
def afterSpace (t : Text) : Text := if t = [] then [] else ' ' :: t

theorem normalize_eq_nil : normalize t = [] ↔ Text.words t = [] := by
  rw [normalize, Text.lower, Text.lowerFrom_eq_nil]
  constructor
  · intro h
    rw [← Text.words_collapse, h]
    rfl
  · intro h
    rw [Text.collapse, h]
    rfl

theorem lowered_of_mem_normalize (h : c ∈ normalize t) : Lowered c :=
  Text.lowered_of_mem_lowerFrom h

theorem lower_append_space (s t : Text) :
    Text.lower (s ++ ' ' :: t) = Text.lower s ++ ' ' :: Text.lower t :=
  Text.lowerFrom_append_cons (by decide +kernel) (by decide +kernel) (by decide +kernel) false s t

/-- Words are lowered each on its own. -/
theorem lower_join (ws : List Text) :
    Text.lower (Text.join [' '] ws) = Text.join [' '] (ws.map Text.lower) := by
  induction ws with
  | nil => rfl
  | cons w rest ih =>
    by_cases hrest : rest = []
    · rw [hrest, Text.join_singleton, List.map_singleton, Text.join_singleton]
    · rw [Text.join_cons w hrest, lower_append_space, ih, List.map_cons,
        Text.join_cons _ (by simpa using hrest)]

theorem isField_lower (hw : Text.IsField isBlank w) : Text.IsField isBlank (Text.lower w) :=
  ⟨mt Text.lowerFrom_eq_nil.mp hw.1, fun _ hc => Text.isBlank_of_mem_lowerFrom hw.2 hc⟩

theorem normalize_eq_join (t : Text) :
    normalize t = Text.join [' '] ((Text.words t).map Text.lower) := by
  rw [normalize, Text.collapse, lower_join]

/-- **The words of the normal form** are those of the text in lower case. -/
theorem words_normalize (t : Text) : Text.words (normalize t) = (Text.words t).map Text.lower := by
  rw [normalize_eq_join]
  refine Text.fields_join (by decide) fun w hw => ?_
  obtain ⟨v, hv, rfl⟩ := List.mem_map.mp hw
  exact isField_lower (Text.mem_fields hv).1

theorem collapse_normalize (t : Text) : Text.collapse (normalize t) = normalize t := by
  rw [Text.collapse, words_normalize, ← normalize_eq_join]

/-- A text in normal form has no blank at either end. -/
theorem trimmed_normalize (t : Text) : Trimmed isBlank (normalize t) :=
  (Text.collapse_eq_self_iff.mp (Text.collapse_collapse t)).2.lower

theorem singleSpaced_normalize (t : Text) : Text.SingleSpaced (normalize t) :=
  (Text.collapse_eq_self_iff.mp (collapse_normalize t)).1

theorem normalize_append_space (hs : normalize s ≠ []) (t : Text) :
    normalize (s ++ ' ' :: t) = normalize s ++ afterSpace (normalize t) := by
  have hwords : Text.words s ≠ [] := mt normalize_eq_nil.mpr hs
  by_cases ht : Text.words t = []
  · have hcollapse : Text.collapse (s ++ ' ' :: t) = Text.collapse s := by
      rw [Text.collapse, Text.words_append_cons (by decide), ht, List.append_nil, Text.collapse]
    rw [normalize, hcollapse, afterSpace, if_pos (normalize_eq_nil.mpr ht), List.append_nil,
      normalize]
  · rw [normalize, Text.collapse_append_cons (by decide) hwords ht, lower_append_space, afterSpace,
      if_neg (mt normalize_eq_nil.mp ht)]
    rfl

/-- A comma at the end of a text stays there. -/
theorem normalize_append_comma (hlast : ∀ c ∈ t.getLast?, isBlank c = false) :
    normalize (t ++ [',']) = normalize t ++ [','] := by
  have hcollapse : Text.collapse (t ++ [',']) = Text.collapse t ++ [','] :=
    Text.collapse_append hlast (List.forall_mem_singleton.mpr (by decide))
  have hsplit := Text.lowerFrom_append_cons (c := ',') (by decide +kernel) (by decide +kernel)
    (by decide +kernel) false (Text.collapse t) []
  rw [normalize, hcollapse, Text.lower, hsplit]
  rfl

/-! ## Opening words -/

theorem dropBlanks_afterSpace (ht : ∀ c ∈ t.head?, isBlank c = false) :
    dropBlanks (afterSpace t) = t := by
  unfold afterSpace
  split
  · rename_i hnil
    rw [hnil]
    rfl
  · exact Text.dropBlanks_space ht

theorem strip_afterSpace (ht : Trimmed isBlank t) : strip (afterSpace t) = t := by
  unfold afterSpace
  split
  · rename_i hnil
    rw [hnil]
    rfl
  · exact (Text.trim_append_left Text.isBlank_of_mem_space).trans (Text.trim_eq_self_iff.mpr ht)

theorem startsWord_afterSpace (t : Text) : Text.startsWord (afterSpace t) = false := by
  unfold afterSpace
  split
  · rfl
  · show Text.isWordChar ' ' = false
    decide +kernel

/-- A single word that stands whole at the start of a text is read there. -/
theorem afterWhole?_append (ht : Text.startsWord t = false) :
    afterWhole? [w] (w ++ t) = some t := by
  rw [afterWhole?, afterWords?, Text.after?_append_self]
  show (if Text.startsWord t = true then none else some t) = some t
  rw [ht]
  rfl

theorem intent_remove (ht : Trimmed isBlank t) : intent ("remove" ++ afterSpace t) = .remove t := by
  have hread : afterPhrase? removalPhrases ("remove" ++ afterSpace t) = some (afterSpace t) :=
    List.findSome?_eq_some_iff.mpr ⟨[], ["remove"], removalPhrases.drop 1, rfl,
      afterWhole?_append (startsWord_afterSpace t), nofun⟩
  rw [intent, hread]
  exact congrArg Intent.remove (strip_afterSpace ht)

/-- No other command opens with `add`, and no longer softener does. -/
theorem intent_add (ht : ∀ c ∈ t.head?, isBlank c = false) :
    intent ("add" ++ afterSpace t) = .add t := by
  have hread : afterPhrase? softeners ("add" ++ afterSpace t) = some (afterSpace t) := by
    refine List.findSome?_eq_some_iff.mpr ⟨softeners.take 4, ["add"], softeners.drop 5, rfl,
      afterWhole?_append (startsWord_afterSpace t), ?_⟩
    simp only [softeners, List.take_succ_cons, List.take_zero, List.forall_mem_cons]
    exact ⟨rfl, rfl, rfl, rfl, nofun⟩
  have hsoftener : dropSoftener ("add" ++ afterSpace t) = t := by
    rw [dropSoftener, hread]
    exact dropBlanks_afterSpace ht
  exact congrArg Intent.add hsoftener

/-- The plan is that of the intent; a blank command would add nothing. -/
theorem compile_eq_plan (limits : Limits) (t : Text) :
    compile limits t = (intent (normalize t)).plan limits t := by
  rw [compile]
  split
  · next h =>
    rw [h]
    rfl
  · rfl

/-- **A command to add is about what follows the word.** -/
theorem compile_add (limits : Limits) (t : Text) :
    compile limits ("add " ++ t) = (Intent.add (normalize t)).plan limits ("add " ++ t) := by
  have hverb : normalize "add" = "add" := by decide +kernel
  have hform : normalize ("add " ++ t) = "add" ++ afterSpace (normalize t) := by
    have happend := normalize_append_space (s := "add") (by rw [hverb]; decide) t
    rwa [hverb] at happend
  rw [compile_eq_plan, hform, intent_add (trimmed_normalize t).1]

/-- **A command to remove is about what follows the word.** -/
theorem compile_remove (limits : Limits) (t : Text) :
    compile limits ("remove " ++ t) =
      (Intent.remove (normalize t)).plan limits ("remove " ++ t) := by
  have hverb : normalize "remove" = "remove" := by decide +kernel
  have hform : normalize ("remove " ++ t) = "remove" ++ afterSpace (normalize t) := by
    have happend := normalize_append_space (s := "remove") (by rw [hverb]; decide) t
    rwa [hverb] at happend
  rw [compile_eq_plan, hform, intent_remove (trimmed_normalize t)]

/-! ## Commas -/

/-- A comma between two texts parts their normal forms. -/
theorem normalize_append_comma_space (hlast : ∀ c ∈ s.getLast?, isBlank c = false) (t : Text) :
    normalize (s ++ ", " ++ t) = normalize s ++ ',' :: afterSpace (normalize t) := by
  have hcomma := normalize_append_comma hlast
  have happend := normalize_append_space (s := s ++ [',']) (by simp [hcomma]) t
  rw [hcomma, List.append_assoc, List.append_assoc] at happend
  rw [List.append_assoc]
  exact happend

theorem segments_normalize_append (hlast : ∀ c ∈ s.getLast?, isBlank c = false) (t : Text) :
    segments (normalize (s ++ ", " ++ t)) = segments (normalize s) ++ segments (normalize t) := by
  rw [normalize_append_comma_space hlast, segments_append_comma (trimmed_normalize s).2,
    dropBlanks_afterSpace (trimmed_normalize t).1]

/-- **A comma is concatenation.**  Of whatever stands before a comma and after it the
same is added, and the same is removed, as if it was said in two commands; only a
blank before the comma can belong to another delimiter. -/
theorem compile_append_comma (limits : Limits) (s t : Text)
    (hlast : ∀ c ∈ s.getLast?, isBlank c = false) :
    (compile limits ("add " ++ s ++ ", " ++ t)).add =
        (compile limits ("add " ++ s)).add ++ (compile limits ("add " ++ t)).add ∧
      (compile limits ("remove " ++ s ++ ", " ++ t)).remove =
        (compile limits ("remove " ++ s)).remove ++ (compile limits ("remove " ++ t)).remove := by
  have hsegments := segments_normalize_append hlast t
  constructor
  · rw [List.append_assoc, List.append_assoc, ← List.append_assoc s, compile_add, compile_add,
      compile_add]
    simp only [Intent.plan, hsegments, List.flatMap_append]
  · rw [List.append_assoc, List.append_assoc, ← List.append_assoc s, compile_remove,
      compile_remove, compile_remove]
    simp only [Intent.plan, hsegments, List.filterMap_append]

theorem compile_append_comma_danglingAnd :
    (∀ c ∈ ("Milk and" : Text).getLast?, isBlank c = false) ∧
      (compile .standard ("add " ++ "Milk and" ++ ", " ++ "and 2 ΕΛΙΕΣ")).add =
        (compile .standard ("add " ++ "Milk and")).add ++
          (compile .standard ("add " ++ "and 2 ΕΛΙΕΣ")).add ∧
      (compile .standard ("remove " ++ "Milk and" ++ ", " ++ "and 2 ΕΛΙΕΣ")).remove =
        (compile .standard ("remove " ++ "Milk and")).remove ++
          (compile .standard ("remove " ++ "and 2 ΕΛΙΕΣ")).remove :=
  have hlast : ∀ c ∈ ("Milk and" : Text).getLast?, isBlank c = false := fun c hc => by
    obtain rfl : 'd' = c := Option.some.inj hc
    decide
  ⟨hlast, compile_append_comma .standard "Milk and" "and 2 ΕΛΙΕΣ" hlast⟩

end SpokenList.Utterance
