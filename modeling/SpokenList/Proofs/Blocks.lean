import SpokenList.Proofs.Groups
import SpokenList.Proofs.Notes

/-! # Segments without notes

The quantities among the tokens of a segment cut it into blocks, one before the first of
them and one after each (`blocks`).  Where no parenthesis is opened, every block is about
one item: its name is made of the tokens of the block without the unit after the quantity
and without filler words (`Block.addition?`).

`groupsFrom` reads the tokens one by one.  How far it has come in a block is told by the
words it has kept and by whether a unit may follow, so what it makes of the rest of that
block is known beforehand, and it goes on with the blocks after it (`groupsFrom_blocks`).
-/
namespace SpokenList.Utterance

variable {limits : Limits} {tokens rest : List Text} {token segment : Text} {r : Reading}
  {q : Option Int} {n : Int}

/-! ## Blocks -/

/-- Tokens between quantities, and the quantity before them unless they come first. -/
structure Block where
  quantity : Option Int
  tokens : List Text
  deriving DecidableEq, Repr

/-- The tokens, cut at the quantities, where some quantity may stand before them. -/
def blocksFrom (limits : Limits) (quantity : Option Int) (tokens : List Text) : List Block :=
  List.zipWith Block.mk (quantity :: (tokens.filterMap (quantity? limits)).map some)
    (tokens.splitOnP fun token => (quantity? limits token).isSome)

/-- The blocks before, between and after the quantities. -/
def blocks (limits : Limits) (tokens : List Text) : List Block := blocksFrom limits none tokens

/-- The tokens without the unit word at their start. -/
def withoutUnit : List Text → List Text
  | [] => []
  | token :: rest => if unitWords.contains token then rest else token :: rest

/-- The words of a name among the tokens, which may stand right after a quantity. -/
def nameWords (afterQuantity : Bool) (tokens : List Text) : List Text :=
  (if afterQuantity then withoutUnit tokens else tokens).filter (!fillerWords.contains ·)

/-- The words of the name in the block. -/
def Block.words (b : Block) : List Text := nameWords b.quantity.isSome b.tokens

/-- The entry for the item that the words are about, unless no name is left: so many of it,
or one if nothing is said. -/
def namedEntry? (quantity : Option Int) (words : List Text) : Option AddEntry :=
  let name := itemName (Text.join [' '] words)
  if name.isEmpty then none else some ⟨name, quantity.getD 1, none⟩

/-- The entry that the block stands for, if it has a name. -/
def Block.addition? (b : Block) : Option AddEntry := namedEntry? b.quantity b.words

/-- The group that is collected from the block, if it has any word. -/
def Block.group (b : Block) : List Group := Reading.group ⟨b.quantity, b.words, false, 0⟩

theorem blocksFrom_nil : blocksFrom limits q [] = [⟨q, []⟩] := rfl

/-- A quantity ends a block. -/
theorem blocksFrom_cons_quantity (h : quantity? limits token = some n) :
    blocksFrom limits q (token :: rest) = ⟨q, []⟩ :: blocksFrom limits (some n) rest := by
  have hcuts : (quantity? limits token).isSome = true := by rw [h]; rfl
  rw [blocksFrom, List.splitOnP_cons_eq_if_modifyHead, if_pos hcuts, List.filterMap_cons_some h]
  rfl

/-- Any other token belongs to the block before the next quantity. -/
theorem blocksFrom_cons_word (h : quantity? limits token = none) :
    ∃ tokens others, blocksFrom limits q rest = ⟨q, tokens⟩ :: others ∧
      blocksFrom limits q (token :: rest) = ⟨q, token :: tokens⟩ :: others := by
  have hjoins : ¬ (quantity? limits token).isSome = true := by rw [h]; exact Bool.false_ne_true
  obtain ⟨tokens, cut, hcut⟩ :=
    List.exists_cons_of_ne_nil (List.splitOnP_ne_nil (fun w => (quantity? limits w).isSome) rest)
  rw [blocksFrom, blocksFrom, List.splitOnP_cons_eq_if_modifyHead, if_neg hjoins,
    List.filterMap_cons_none h, hcut]
  exact ⟨tokens, _, rfl, rfl⟩

theorem exists_blocksFrom (limits : Limits) (q : Option Int) (tokens : List Text) :
    ∃ own others, blocksFrom limits q tokens = ⟨q, own⟩ :: others := by
  obtain ⟨own, cut, hcut⟩ :=
    List.exists_cons_of_ne_nil (List.splitOnP_ne_nil (fun w => (quantity? limits w).isSome) tokens)
  rw [blocksFrom, hcut]
  exact ⟨own, _, rfl⟩

/-- **A word is of the name** unless it is the unit of the quantity or a filler word. -/
theorem nameWords_cons (after : Bool) (token : Text) (rest : List Text) :
    nameWords after (token :: rest) =
      if (after && unitWords.contains token) || fillerWords.contains token then
        nameWords false rest
      else token :: nameWords false rest := by
  cases after <;> by_cases hunit : token ∈ unitWords <;>
    simp [nameWords, withoutUnit, hunit, List.filter_cons]

theorem nameWords_nil (after : Bool) : nameWords after [] = [] := by cases after <;> rfl

/-! ## Reading -/

/-- **What is read of the blocks.**  The block that is being read adds its words to those
that were kept, and every other block is a group of its own. -/
theorem groupsFrom_blocks (hr : r.depth = 0) (htokens : ∀ token ∈ tokens, '(' ∉ token)
    {own : List Text} {others : List Block}
    (hblocks : blocksFrom limits r.quantity tokens = ⟨r.quantity, own⟩ :: others) :
    groupsFrom limits r tokens =
      Reading.group ⟨r.quantity, r.words ++ nameWords r.afterQuantity own, false, 0⟩ ++
        others.flatMap Block.group := by
  fun_induction groupsFrom limits r tokens generalizing own others with
  | case1 r =>
    obtain ⟨hown, rfl⟩ := List.cons.inj (blocksFrom_nil.symm.trans hblocks)
    obtain rfl : [] = own := congrArg Block.tokens hown
    rw [nameWords_nil, List.append_nil, List.flatMap_nil, List.append_nil]
    rfl
  | case2 r token rest hnote =>
    have hopening := htokens token (List.mem_cons_self ..)
    simp [hr, hopening] at hnote
  | case3 r token rest _ n hn ih =>
    -- the quantity ends the block, and opens one of which nothing has been read
    obtain ⟨next, later, hnext⟩ := exists_blocksFrom limits (some n) rest
    rw [blocksFrom_cons_quantity hn, hnext] at hblocks
    obtain ⟨hown, rfl⟩ := List.cons.inj hblocks
    obtain rfl : [] = own := congrArg Block.tokens hown
    rw [ih rfl (fun w hw => htokens w (List.mem_cons_of_mem token hw)) hnext, nameWords_nil,
      List.append_nil, List.flatMap_cons]
    rfl
  | case4 r token rest _ hnone hpassed ih =>
    obtain ⟨own', others', hrest, hcons⟩ := blocksFrom_cons_word hnone
    obtain ⟨hown, rfl⟩ := List.cons.inj (hcons.symm.trans hblocks)
    obtain rfl : token :: own' = own := congrArg Block.tokens hown
    rw [ih hr (fun w hw => htokens w (List.mem_cons_of_mem token hw)) hrest, nameWords_cons,
      if_pos hpassed]
    rfl
  | case5 r token rest _ hnone hkept ih =>
    obtain ⟨own', others', hrest, hcons⟩ := blocksFrom_cons_word hnone
    obtain ⟨hown, rfl⟩ := List.cons.inj (hcons.symm.trans hblocks)
    obtain rfl : token :: own' = own := congrArg Block.tokens hown
    rw [ih hr (fun w hw => htokens w (List.mem_cons_of_mem token hw)) hrest, nameWords_cons,
      if_neg hkept, Reading.keep, List.append_assoc]
    rfl

theorem noOpening_of_words (hsegment : '(' ∉ segment) (hwords : Text.words segment = tokens) :
    ∀ token ∈ tokens, '(' ∉ token := fun token htoken hopening =>
  hsegment ((Text.mem_fields (by rwa [← Text.words_eq_fields, hwords])).2 '(' hopening)

/-- **The groups of a segment are its blocks**, as far as words are kept of them. -/
theorem groups_eq_blocks (hsegment : '(' ∉ segment) :
    groups limits segment = (blocks limits (Text.words segment)).flatMap Block.group := by
  have htokens := noOpening_of_words hsegment rfl
  obtain ⟨own, others, hblocks⟩ := exists_blocksFrom limits none (Text.words segment)
  rw [groups, groupsFrom_blocks rfl htokens hblocks, blocks, hblocks, List.flatMap_cons]
  rfl

/-! ## Entries -/

/-- A group in which no parenthesis is opened has no note. -/
theorem Group.addition?_of_notMem {g : Group} (hwords : ∀ w ∈ g.words, Text.IsField Text.isBlank w)
    (hg : '(' ∉ g.text) : g.addition? = namedEntry? g.quantity g.words := by
  have hstrip : Text.strip g.text = g.text :=
    Text.trim_eq_self_iff.mpr (Text.singleSpaced_join hwords).2
  rw [Group.addition?, takeNote_of_notMem hg, hstrip]
  rfl

/-- Where there are no words no group is collected, and no name is left either. -/
theorem filterMap_collected {words : List Text} {e : Option AddEntry}
    (he : namedEntry? q words = e) :
    (Reading.group ⟨q, words, false, 0⟩).filterMap (fun g => namedEntry? g.quantity g.words) =
      e.toList := by
  subst he
  rw [Reading.group]
  by_cases hwords : words = []
  · have hempty : itemName (Text.join [' '] []) = [] := by decide +kernel
    rw [if_pos (by simpa using hwords), hwords, namedEntry?]
    simp [hempty]
  · rw [if_neg (by simpa using hwords), List.filterMap_eq_flatMap_toList, List.flatMap_singleton]

theorem Block.filterMap_group (b : Block) :
    b.group.filterMap (fun g => namedEntry? g.quantity g.words) = b.addition?.toList :=
  filterMap_collected rfl

/-- **Without parentheses a segment is read block by block.**  Every block of which a name
is left adds one item, in the order of the blocks: so many as the quantity before the
block says, or one for the leading block, and without a note. -/
theorem addEntries_eq_blocks (limits : Limits) {segment : Text} (hsegment : '(' ∉ segment) :
    addEntries limits segment =
      (blocks limits (Text.words segment)).filterMap Block.addition? := by
  have hnoted : ∀ g ∈ groups limits segment, g.addition? = namedEntry? g.quantity g.words := by
    intro g hg
    refine Group.addition?_of_notMem (fun w hw => (Text.mem_fields ((mem_groups hg).2 w hw)).1) ?_
    intro hopening
    rcases mem_groupText hg hopening with h | h
    · exact absurd h (by decide)
    · exact hsegment h
  rw [addEntries, List.filterMap_congr hnoted, groups_eq_blocks hsegment, List.filterMap_flatMap,
    List.flatMap_congr fun b _ => Block.filterMap_group b, List.filterMap_eq_flatMap_toList]

/-- A unit goes right after a quantity only, and a block that only fills or counts adds
nothing. -/
theorem addEntries_eq_blocks_unitsAndFillers :
    let segment : Text := "hey butter) can 2 can can bags 3 007 the pack of gum ten some 5"
    '(' ∉ segment ∧
      addEntries .standard segment =
        [⟨"butter)", 1, none⟩, ⟨"bags", 2, none⟩, ⟨"pack gum", 7, none⟩] := by
  intro segment
  have hsegment : '(' ∉ segment := by decide +kernel
  refine ⟨hsegment, ?_⟩
  rw [addEntries_eq_blocks .standard hsegment]
  decide +kernel

end SpokenList.Utterance
