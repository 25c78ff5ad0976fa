import SpokenList.Proofs.Blocks
import SpokenList.Proofs.ItemNames
import SpokenList.Proofs.Mentions

/-! # Filler words

What has been read of a segment is all that matters to what follows (`groupsFrom_append`):
the words that were kept, whether the last token was a quantity, and how many parentheses
are open.  Outside a note a filler word changes one thing in this, that a quantity is no
longer the last token (`groupsFrom_cons_filler`).  So it may be put anywhere but directly
after a quantity (`addEntries_insert_filler`).

Directly after a quantity it matters only to the token that stood there, and only if that
is a unit: then the unit is no longer passed over and becomes part of the name
(`addEntries_filler_after_quantity_iff`).
-/
namespace SpokenList.Utterance

variable {limits : Limits} {n : Int} {segment other f token w : Text}
  {before after kept rest tokens words : List Text} {q : Option Int} {r : Reading}

/-! ## Reading token by token -/

namespace Reading

/-- What has been read with one more token. -/
def next (limits : Limits) (r : Reading) (token : Text) : Reading :=
  if 0 < r.depth ∨ token.contains '(' then r.keepNoted token
  else match quantity? limits token with
    | some n => .opened n
    | none =>
      if (r.afterQuantity && unitWords.contains token) || fillerWords.contains token then r.pass
      else r.keep token

/-- The group that the token closes, if it is a quantity outside a note. -/
def closed (limits : Limits) (r : Reading) (token : Text) : List Group :=
  if 0 < r.depth ∨ token.contains '(' then []
  else if (quantity? limits token).isSome then r.group else []

/-- The groups that some tokens close. -/
def closedBy (limits : Limits) (r : Reading) : List Text → List Group
  | [] => []
  | token :: rest => r.closed limits token ++ closedBy limits (r.next limits token) rest

/-- Right after a token a unit may follow only if the token was a quantity. -/
theorem afterQuantity_next (h : (r.next limits token).afterQuantity = true) :
    (quantity? limits token).isSome = true := by
  unfold next at h
  split at h
  · cases h
  · split at h
    · next hn => rw [hn]; rfl
    · split at h <;> cases h

theorem depth_next (hr : r.depth = 0) (htoken : '(' ∉ token) :
    (r.next limits token).depth = 0 := by
  rw [next, if_neg (by simp [hr, htoken])]
  split
  · rfl
  · split <;> exact hr

end Reading

theorem groupsFrom_cons (limits : Limits) (r : Reading) (token : Text) (rest : List Text) :
    groupsFrom limits r (token :: rest) =
      r.closed limits token ++ groupsFrom limits (r.next limits token) rest := by
  rw [groupsFrom, Reading.closed, Reading.next]
  split
  · rfl
  · cases quantity? limits token with
    | some n => rfl
    | none => exact (apply_ite (fun r => groupsFrom limits r rest) _ _ _).symm

/-- **What has been read is all that matters to the rest.** -/
theorem groupsFrom_append (limits : Limits) (r : Reading) (before rest : List Text) :
    groupsFrom limits r (before ++ rest) =
      r.closedBy limits before ++ groupsFrom limits (before.foldl (Reading.next limits) r) rest := by
  induction before generalizing r with
  | nil => rfl
  | cons token before ih =>
    rw [List.cons_append, groupsFrom_cons, ih, ← List.append_assoc]
    rfl

theorem depth_foldl_next (hr : r.depth = 0) (hbefore : ∀ token ∈ before, '(' ∉ token) :
    (before.foldl (Reading.next limits) r).depth = 0 := by
  induction before generalizing r with
  | nil => exact hr
  | cons token before ih =>
    obtain ⟨htoken, hbefore⟩ := List.forall_mem_cons.mp hbefore
    exact ih (Reading.depth_next hr htoken) hbefore

/-- A unit may follow only if the last token was a quantity. -/
theorem afterQuantity_foldl_next (hr : r.afterQuantity = false)
    (hbefore : ∀ token ∈ before.getLast?, quantity? limits token = none) :
    (before.foldl (Reading.next limits) r).afterQuantity = false := by
  obtain rfl | ⟨front, token, rfl⟩ := List.eq_nil_or_concat' before
  · exact hr
  · rw [List.foldl_concat, ← Bool.not_eq_true]
    intro hafter
    have hsome := Reading.afterQuantity_next hafter
    rw [hbefore token (by simp)] at hsome
    cases hsome

/-! ## Filler words -/

theorem noOpening_of_mem_fillerWords (hf : f ∈ fillerWords) : '(' ∉ f := by
  have hall : ∀ f ∈ fillerWords, '(' ∉ f := by decide
  exact hall f hf

/-- **A filler word is passed over.** -/
theorem groupsFrom_cons_filler (hr : r.depth = 0) (hf : f ∈ fillerWords) (rest : List Text) :
    groupsFrom limits r (f :: rest) = groupsFrom limits r.pass rest := by
  rw [groupsFrom, if_neg (by simp [hr, noOpening_of_mem_fillerWords hf]),
    quantity?_eq_none (by simp [hf])]
  exact if_pos (by simp [hf])

/-- Where no quantity is the last token, a filler word leaves no trace. -/
theorem groups_insert_filler (hbefore : ∀ token ∈ before, '(' ∉ token)
    (hlast : ∀ token ∈ before.getLast?, quantity? limits token = none) (hf : f ∈ fillerWords)
    (after : List Text) :
    groupsFrom limits .start (before ++ f :: after) =
      groupsFrom limits .start (before ++ after) := by
  have hpass : (before.foldl (Reading.next limits) .start).pass =
      before.foldl (Reading.next limits) .start := by
    have hafter := afterQuantity_foldl_next (r := .start) rfl hlast
    rw [Reading.pass, ← hafter]
  rw [groupsFrom_append, groupsFrom_append, groupsFrom_cons_filler (depth_foldl_next rfl hbefore) hf,
    hpass]

/-- **Filler words do not matter.**  Wherever one is put among the tokens of a segment without
parentheses, unless directly after a quantity, the same is added. -/
theorem addEntries_insert_filler (limits : Limits) {segment other f : Text}
    {before after : List Text} (hsegment : '(' ∉ segment) (hf : f ∈ fillerWords)
    (hwords : Text.words segment = before ++ after)
    (hlast : ∀ token ∈ before.getLast?, quantity? limits token = none)
    (hother : Text.words other = before ++ f :: after) :
    addEntries limits other = addEntries limits segment := by
  have hbefore : ∀ token ∈ before, '(' ∉ token := fun token htoken =>
    noOpening_of_words hsegment hwords token (List.mem_append_left after htoken)
  rw [addEntries, addEntries, groups, groups, hwords, hother, groups_insert_filler hbefore hlast hf]

/-- The unit has been read, so a second `can` is a filler word and `cans` is in the name. -/
theorem addEntries_insert_filler_secondCan :
    let segment : Text := "hey butter 2 can cans tuna 3 the pack 4"
    let other : Text := "hey butter 2 can can cans\ttuna 3 the pack 4"
    let f : Text := "can"
    let before : List Text := ["hey", "butter", "2", "can"]
    let after : List Text := ["cans", "tuna", "3", "the", "pack", "4"]
    '(' ∉ segment ∧ f ∈ fillerWords ∧ Text.words segment = before ++ after ∧
      (∀ token ∈ before.getLast?, quantity? .standard token = none) ∧
      Text.words other = before ++ f :: after ∧
      addEntries .standard segment =
        [⟨"butter", 1, none⟩, ⟨"cans tuna", 2, none⟩, ⟨"pack", 3, none⟩] ∧
      addEntries .standard other = addEntries .standard segment := by
  intro segment other f before after
  have hsegment : '(' ∉ segment := by decide +kernel
  have hf : f ∈ fillerWords := by decide
  have hwords : Text.words segment = before ++ after := by decide +kernel
  have hlast : ∀ token ∈ before.getLast?, quantity? .standard token = none := by
    intro token htoken
    obtain rfl : "can" = token := Option.some.inj htoken
    decide
  have hother : Text.words other = before ++ f :: after := by decide +kernel
  exact ⟨hsegment, hf, hwords, hlast, hother, by decide +kernel,
    addEntries_insert_filler .standard hsegment hf hwords hlast hother⟩

/-! ## After a quantity -/

/-- Whether a unit may follow matters to a unit only, and not to `can`, which is a filler
word as well. -/
theorem groupsFrom_pass (h : ∀ w ∈ tokens.head?, w ∈ unitWords → w ∈ fillerWords) :
    groupsFrom limits r.pass tokens = groupsFrom limits r tokens := by
  cases tokens with
  | nil => rfl
  | cons w rest =>
    have hpassed : ((r.pass.afterQuantity && unitWords.contains w) || fillerWords.contains w) =
        ((r.afterQuantity && unitWords.contains w) || fillerWords.contains w) := by
      by_cases hunit : w ∈ unitWords
      · simp [h w rfl hunit]
      · simp [hunit]
    rw [groupsFrom, groupsFrom, hpassed]
    rfl

theorem wholeWord_of_mem_unitWords (hw : w ∈ unitWords) :
    wholeWords w = [w] ∧ w ∉ stopWords := by
  have hall : ∀ w ∈ unitWords, wholeWords w = [w] ∧ w ∉ stopWords := by decide +kernel
  exact hall w hw

/-- A unit is never lost from a name. -/
theorem itemName_cons_unit_ne (hw : w ∈ unitWords) (words : List Text) :
    itemName (Text.join [' '] (w :: words)) ≠ itemName (Text.join [' '] words) := by
  obtain ⟨hwhole, hstop⟩ := wholeWord_of_mem_unitWords hw
  have hspace : parts ' ' = true := by decide +kernel
  intro hsame
  have hlengths := congrArg (fun name => (wholeWords name).length) hsame
  simp only [wholeWords_itemName] at hlengths
  rw [wholeWords, wholeWords, Text.fields_join_eq_flatMap hspace, Text.fields_join_eq_flatMap hspace,
    List.flatMap_cons, List.filter_append, ← wholeWords, hwhole,
    List.filter_cons_of_pos (by simpa using hstop), List.length_append] at hlengths
  simp at hlengths

/-- Entries for one quantity that are the same have the same name. -/
theorem itemName_eq_of_same (h : namedEntry? q words = namedEntry? q kept) :
    itemName (Text.join [' '] words) = itemName (Text.join [' '] kept) := by
  unfold namedEntry? at h
  dsimp only at h
  split at h <;> rename_i hwords <;> split at h <;> rename_i hkept
  · rw [List.isEmpty_iff.mp hwords, List.isEmpty_iff.mp hkept]
  · cases h
  · cases h
  · exact congrArg AddEntry.name (Option.some.inj h)

/-- Without parentheses the groups are known by their names. -/
theorem filterMap_addition?_groupsFrom (hr : r.words = [])
    (htokens : ∀ w ∈ tokens, Text.IsField Text.isBlank w ∧ '(' ∉ w) :
    (groupsFrom limits r tokens).filterMap Group.addition? =
      (groupsFrom limits r tokens).filterMap fun g => namedEntry? g.quantity g.words := by
  refine List.filterMap_congr fun g hg => ?_
  have hwords : ∀ w ∈ g.words, Text.IsField Text.isBlank w ∧ '(' ∉ w := by
    intro w hw
    rcases (saidBy_of_mem_groupsFrom hg).2 w hw with h | h
    · rw [hr] at h
      cases h
    · exact htokens w h
  refine Group.addition?_of_notMem (fun w hw => (hwords w hw).1) fun hopening => ?_
  rcases Text.mem_join hopening with h | ⟨w, hw, h⟩
  · exact absurd h (by decide)
  · exact (hwords w hw).2 h

/-- A unit that is parted from its quantity is kept for the name. -/
theorem filterMap_pass_cons_unit_ne (hunit : w ∈ unitWords) (hnot : w ∉ fillerWords)
    (htokens : ∀ token ∈ w :: rest, Text.IsField Text.isBlank token ∧ '(' ∉ token) :
    (groupsFrom limits (Reading.opened n).pass (w :: rest)).filterMap Group.addition? ≠
      (groupsFrom limits (.opened n) (w :: rest)).filterMap Group.addition? := by
  have hrest : ∀ token ∈ rest, '(' ∉ token := fun token htoken =>
    (htokens token (List.mem_cons_of_mem w htoken)).2
  obtain ⟨own, others, hblocks⟩ := exists_blocksFrom limits (some n) rest
  have hparted : groupsFrom limits (Reading.opened n).pass (w :: rest) =
      Reading.group ⟨some n, w :: nameWords false own, false, 0⟩ ++ others.flatMap Block.group := by
    rw [groupsFrom_cons_plain rfl (htokens w (List.mem_cons_self ..)).2
      (fun h => absurd h Bool.false_ne_true) ⟨quantity?_eq_none (by simp [hunit]), hnot⟩]
    exact groupsFrom_blocks rfl hrest hblocks
  have hpassed : groupsFrom limits (.opened n) (w :: rest) =
      Reading.group ⟨some n, nameWords false own, false, 0⟩ ++ others.flatMap Block.group := by
    rw [groupsFrom_cons_unit hunit]
    exact groupsFrom_blocks rfl hrest hblocks
  intro hsame
  rw [filterMap_addition?_groupsFrom (r := (Reading.opened n).pass) rfl htokens,
    filterMap_addition?_groupsFrom (r := .opened n) rfl htokens, hparted, hpassed,
    List.filterMap_append, List.filterMap_append, List.append_cancel_right_eq,
    filterMap_collected rfl, filterMap_collected rfl] at hsame
  have hentries := congrArg List.head? hsame
  rw [Option.head?_toList, Option.head?_toList] at hentries
  exact itemName_cons_unit_ne hunit _ (itemName_eq_of_same hentries)

/-- **Directly after a quantity a filler word matters to a unit only.**  The unit that it
parts from its quantity becomes a word of the name; anything else that follows, and `can`
too, is read as before. -/
theorem addEntries_filler_after_quantity_iff (limits : Limits) {segment other f token : Text}
    {n : Int} {before after : List Text} (hsegment : '(' ∉ segment) (hf : f ∈ fillerWords)
    (htoken : quantity? limits token = some n)
    (hwords : Text.words segment = before ++ token :: after)
    (hother : Text.words other = before ++ token :: f :: after) :
    addEntries limits other = addEntries limits segment ↔
      ∀ w ∈ after.head?, w ∈ unitWords → w ∈ fillerWords := by
  have htokens : ∀ w ∈ before ++ token :: after, Text.IsField Text.isBlank w ∧ '(' ∉ w :=
    fun w hw => ⟨(Text.mem_fields (by rwa [← Text.words_eq_fields, hwords])).1,
      noOpening_of_words hsegment hwords w hw⟩
  have hdepth : (before.foldl (Reading.next limits) .start).depth = 0 :=
    depth_foldl_next rfl fun w hw => (htokens w (List.mem_append_left _ hw)).2
  -- up to the quantity the same groups are read, and what follows is read from there
  rw [addEntries, addEntries, groups, groups, hwords, hother, groupsFrom_append, groupsFrom_append,
    groupsFrom_cons_quantity hdepth htoken, groupsFrom_cons_quantity hdepth htoken,
    groupsFrom_cons_filler rfl hf, List.filterMap_append, List.filterMap_append,
    List.filterMap_append, List.filterMap_append, List.append_cancel_left_eq,
    List.append_cancel_left_eq]
  constructor
  · rintro hsame w hw hunit
    obtain ⟨rest, rfl⟩ := List.head?_eq_some_iff.mp hw
    by_contra hnot
    refine filterMap_pass_cons_unit_ne hunit hnot (fun w' hw' => htokens w' ?_) hsame
    exact List.mem_append_right _ (List.mem_cons_of_mem _ hw')
  · intro hhead
    rw [groupsFrom_pass hhead]

end SpokenList.Utterance
