import SpokenList.Proofs.BrokenNotes
import SpokenList.Proofs.CompiledPlans

/-! # What the beginning of a command tells

Whether a text opens with a word, and what comes right after it, can be seen in as
many characters and one more (`opens_congr`).  The openings of the commands to
remove and to adjust are short, so two commands in normal form that begin alike
both have one or neither has (`opensRemoval_congr`, `opensChange_congr`).

That does not yet settle what a command asks for: one that opens with a verb of
adjusting adds something after all if no quantity follows.  But then the verb
itself is the name of an item, or begins one (`addEntries_ne_nil`).  So among the
plans that ask for nothing the beginning tells the kind of the command
(`operation_congr`).
-/
namespace SpokenList.Utterance

open Text (isBlank isWordChar startsBlank dropBlanks IsField)

variable {limits : Limits} {c : Char} {n : Nat} {q : Option Char → Bool}
  {p rest s t v w x : Text}

/-! ## Openings -/

/-- The text starts with the word, and `q` holds of the character after it. -/
def opens (q : Option Char → Bool) (w t : Text) : Bool :=
  (Text.after? w t).any fun rest => q rest.head?

/-- What follows a word starts alike in texts that begin alike. -/
theorem map_head?_after? (h : s.take (w.length + 1) = t.take (w.length + 1)) :
    (Text.after? w s).map List.head? = (Text.after? w t).map List.head? := by
  induction w generalizing s t with
  | nil =>
    have hhead : s.head? = t.head? := by
      cases s <;> cases t <;> simp_all
    exact congrArg some hhead
  | cons c w ih =>
    cases s with
    | nil =>
      obtain rfl : t = [] := by simpa using h.symm
      rfl
    | cons a s =>
      cases t with
      | nil => cases h
      | cons b t =>
        obtain ⟨rfl, hrest⟩ := List.cons.inj h
        show (if c == a then Text.after? w s else none).map List.head? =
          (if c == a then Text.after? w t else none).map List.head?
        split
        · exact ih hrest
        · rfl

theorem opens_congr (hw : w.length < n) (h : s.take n = t.take n) : opens q w s = opens q w t := by
  have hshort : s.take (w.length + 1) = t.take (w.length + 1) := by
    have hboth := congrArg (List.take (w.length + 1)) h
    rwa [List.take_take, List.take_take, Nat.min_eq_left hw] at hboth
  have hmap := congrArg (Option.any q) (map_head?_after? (w := w) hshort)
  rwa [Option.any_map, Option.any_map] at hmap

theorem any_opens_congr {words : List Text} (hwords : ∀ w ∈ words, w.length < n)
    (h : s.take n = t.take n) : words.any (opens q · s) = words.any (opens q · t) := by
  induction words with
  | nil => rfl
  | cons w rest ih =>
    obtain ⟨hw, hrest⟩ := List.forall_mem_cons.mp hwords
    rw [List.any_cons, List.any_cons, opens_congr hw h, ih hrest]

/-! ## Openings of the commands to remove -/

/-- A command to remove opens with one of its phrases. -/
def opensRemoval (t : Text) : Bool := (afterPhrase? removalPhrases t).isSome

/-- No word goes on with the character. -/
def endsWord (c : Option Char) : Bool := !c.any isWordChar

/-- In a single-spaced text one space stands between two words. -/
theorem afterWords?_pair (ht : Text.SingleSpaced t) (hw : ∀ c ∈ w.head?, isBlank c = false)
    (hne : w ≠ []) : afterWords? [v, w] t = Text.after? (v ++ ' ' :: w) t := by
  have hread : afterWords? [v, w] t = (Text.after? v t).bind fun rest =>
      if startsBlank rest then Text.after? w (dropBlanks rest) else none := rfl
  ext u
  rw [hread, Option.bind_eq_some_iff, Text.after?_eq_some_iff]
  constructor
  · rintro ⟨rest, hrest, hu⟩
    rw [Text.after?_eq_some_iff] at hrest
    split at hu
    · next hblank =>
      obtain ⟨c, others, rfl, hc⟩ := Text.startsBlank_eq_true_iff.mp hblank
      have hothers : Text.SingleSpaced (c :: others) := ht.of_isInfix ⟨v, [], by simpa using hrest⟩
      obtain rfl : c = ' ' := hothers.1 c (List.mem_cons_self ..) hc
      have hhead : ∀ d ∈ others.head?, isBlank d = false := by
        intro d hd
        obtain ⟨after, rfl⟩ := List.head?_eq_some_iff.mp hd
        cases hblank : isBlank d with
        | false => rfl
        | true =>
          have hspace : d = ' ' := hothers.1 d (by simp) hblank
          exact absurd ⟨rfl, hspace⟩ (List.isChain_cons_cons.mp hothers.2).1
      rw [Text.dropBlanks_space hhead, Text.after?_eq_some_iff] at hu
      rw [← hrest, ← hu]
      simp
    · cases hu
  · rintro rfl
    refine ⟨' ' :: (w ++ u), by rw [Text.after?_eq_some_iff]; simp, ?_⟩
    have hhead : ∀ c ∈ (w ++ u).head?, isBlank c = false := by
      rwa [List.head?_append_of_ne_nil _ hne]
    have hblank : startsBlank (' ' :: (w ++ u)) = true := Text.isBlank_of_mem_space ' ' (by simp)
    rw [if_pos hblank, Text.dropBlanks_space hhead, Text.after?_eq_some_iff]

/-- A phrase that is read like a word is read where no word goes on. -/
theorem afterWhole?_eq {phrase : List Text} (h : afterWords? phrase t = Text.after? w t) :
    afterWhole? phrase t = (Text.after? w t).filter (!Text.startsWord ·) := by
  have hread : afterWhole? phrase t = (Text.after? w t).bind fun rest =>
      if Text.startsWord rest then none else some rest := by
    rw [afterWhole?, h]
    rfl
  rw [hread]
  cases Text.after? w t with
  | none => rfl
  | some rest =>
    rw [Option.filter_some]
    show (if Text.startsWord rest then none else some rest) = _
    cases Text.startsWord rest <;> rfl

/-- The phrases of the commands to remove, as they are said in normal form. -/
def removalOpenings : List Text := ["remove", "delete", "drop", "take off"]

theorem afterPhrase?_removal (ht : Text.SingleSpaced t) :
    afterPhrase? removalPhrases t =
      removalOpenings.findSome? fun w => (Text.after? w t).filter (!Text.startsWord ·) := by
  have hoff : ∀ c ∈ ("off" : Text).head?, isBlank c = false := by
    rintro c ⟨⟩
    rfl
  have hpair : afterWords? ["take", "off"] t = Text.after? "take off" t :=
    afterWords?_pair ht hoff (by decide)
  have hone (w : Text) : afterWhole? [w] t = (Text.after? w t).filter (!Text.startsWord ·) :=
    afterWhole?_eq rfl
  rw [afterPhrase?, removalPhrases, removalOpenings]
  simp only [List.findSome?_cons, List.findSome?_nil, hone, afterWhole?_eq hpair]

theorem opensRemoval_eq (ht : Text.SingleSpaced t) :
    opensRemoval t = removalOpenings.any (opens endsWord · t) := by
  have hends (rest : Text) : (!Text.startsWord rest) = endsWord rest.head? := by cases rest <;> rfl
  rw [opensRemoval, afterPhrase?_removal ht, List.isSome_findSome?]
  simp only [opens, Option.isSome_filter, hends]

theorem opensRemoval_congr (hs : Text.SingleSpaced s) (ht : Text.SingleSpaced t) (hn : 9 ≤ n)
    (h : s.take n = t.take n) : opensRemoval s = opensRemoval t := by
  rw [opensRemoval_eq hs, opensRemoval_eq ht]
  refine any_opens_congr (fun w hw => ?_) h
  have hall : ∀ w ∈ removalOpenings, w.length < 9 := by decide
  have hlength := hall w hw
  omega

/-! ## Openings of the commands to adjust -/

/-- The verbs that open a command to adjust. -/
def changeVerbs : List Text := increaseVerbs ++ decreaseVerbs

/-- One of the verbs of adjusting opens the text, with a blank after it. -/
def opensChange (t : Text) : Bool := changeVerbs.any (opens (·.any isBlank) · t)

theorem opensChange_congr (hn : 9 ≤ n) (h : s.take n = t.take n) :
    opensChange s = opensChange t := by
  refine any_opens_congr (fun w hw => ?_) h
  have hall : ∀ w ∈ changeVerbs, w.length < 9 := by decide
  have hlength := hall w hw
  omega

theorem opensChange_iff :
    opensChange t = true ↔ ∃ v ∈ changeVerbs, ∃ rest, t = v ++ rest ∧ startsBlank rest = true := by
  have hblank (rest : Text) : rest.head?.any isBlank = startsBlank rest := by cases rest <;> rfl
  simp only [opensChange, opens, List.any_eq_true, Option.any_eq_true, hblank,
    Text.after?_eq_some_iff, eq_comm (a := t)]

/-- What is read as an adjustment opens with one of the verbs. -/
theorem opensChange_of_adjustment? {verbs : List Text} {r : Text × Text}
    (hverbs : verbs ⊆ changeVerbs) (h : adjustment? verbs t = some r) : opensChange t = true := by
  obtain ⟨rest, hrest, -⟩ := Option.bind_eq_some_iff.mp h
  obtain ⟨v, hv, hread⟩ := List.exists_of_findSome?_eq_some hrest
  obtain ⟨after, hafter, hread⟩ := Option.bind_eq_some_iff.mp hread
  split at hread
  · next hblank =>
    exact opensChange_iff.mpr ⟨v, hverbs hv, after, (Text.after?_eq_some_iff.mp hafter).symm, hblank⟩
  · cases hread

/-! ## Words that stay in a name -/

/-- No delimiter starts inside a word, so the first piece goes on to where it ends. -/
theorem pieces_word_append (hw : ∀ c ∈ w, isBlank c = false ∧ c ≠ ',')
    (hrest : ∀ c ∈ rest.head?, isBlank c = true) :
    ∃ p others, pieces 0 (w ++ rest) = (w ++ p) :: others ∧ ∀ c ∈ p.head?, isBlank c = true := by
  induction w with
  | nil =>
    cases rest with
    | nil => exact ⟨[], [], rfl, nofun⟩
    | cons b rest =>
      cases hlength : delimiterLength? (b :: rest) with
      | some n => exact ⟨[], _, pieces_cons_of_some hlength, nofun⟩
      | none =>
        obtain ⟨first, others, hpieces⟩ := List.exists_cons_of_ne_nil (pieces_ne_nil 0 rest)
        refine ⟨b :: first, others, ?_, hrest⟩
        rw [List.nil_append, pieces_cons_of_none hlength, hpieces]
        rfl
  | cons c w ih =>
    obtain ⟨hc, hothers⟩ := List.forall_mem_cons.mp hw
    have hhead : ∀ d ∈ (c :: (w ++ rest)).head?, isBlank d = false ∧ d ≠ ',' :=
      fun d hd => Option.some.inj hd ▸ hc
    have hlength : delimiterLength? (c :: (w ++ rest)) = none := by
      rw [← List.nil_append (c :: (w ++ rest)), delimiterLength?_word (List.forall_mem_nil _) hhead,
        if_pos rfl]
    obtain ⟨p, others, hpieces, hp⟩ := ih hothers
    refine ⟨p, others, ?_, hp⟩
    rw [List.cons_append, pieces_cons_of_none hlength, hpieces]
    rfl

/-- A word that nothing but an item is read from. -/
structure Solid (limits : Limits) (w : Text) : Prop where
  isField : IsField parts w
  plain : quantity? limits w = none ∧ w ∉ fillerWords
  kept : w ∉ stopWords

namespace Solid

theorem isWordChar (h : Solid limits w) (hc : c ∈ w) : isWordChar c = true :=
  isWordChar_of_mem h.isField hc

theorem isBlank_eq_false (h : Solid limits w) (hc : c ∈ w) : isBlank c = false := by
  cases hblank : isBlank c with
  | false => rfl
  | true =>
    have hword := h.isWordChar hc
    rw [Text.isWordChar_of_isBlank hblank] at hword
    cases hword

theorem isField_isBlank (h : Solid limits w) : IsField isBlank w :=
  ⟨h.isField.1, fun _ hc => h.isBlank_eq_false hc⟩

theorem notMem (h : Solid limits w) (hc : Text.isWordChar c = false) : c ∉ w := fun hmem => by
  have hword := h.isWordChar hmem
  rw [hc] at hword
  cases hword

/-- The word is in what is left when a note is taken out. -/
theorem mem_wholeWords_takeNote (h : Solid limits w) (hx : ∀ c ∈ x.head?, parts c = true) :
    w ∈ wholeWords (takeNote (w ++ x)).text := by
  have hread (y : Text) (hy : ∀ c ∈ y.head?, parts c = true) :
      w ∈ wholeWords (Text.strip (w ++ y)) := by
    have hfields : wholeWords (w ++ y) = w :: wholeWords y := h.isField.fields_append hy
    rw [wholeWords, Text.strip, Text.fields_trim fun _ => parts_of_isBlank, ← wholeWords, hfields]
    exact List.mem_cons_self ..
  have hopening : '(' ∉ w := h.notMem (by decide +kernel)
  by_cases hnote : '(' ∈ x
  · obtain ⟨before, inside, rfl, hbefore⟩ := List.eq_append_cons_of_mem hnote
    have hnone : '(' ∉ w ++ before := by simp [hopening, hbefore]
    rw [← List.append_assoc, takeNote_append hnone, List.append_assoc]
    refine hread _ fun c hc => ?_
    cases before with
    | nil =>
      obtain rfl : ' ' = c := Option.some.inj hc
      decide +kernel
    | cons d others => exact hx c hc
  · rw [takeNote_of_notMem (by simp [hopening, hnote])]
    exact hread x hx

/-- A group that starts with the word stands for an entry. -/
theorem addition?_ne_none (h : Solid limits w) {g : Group} (hg : [w] <+: g.words) :
    g.addition? ≠ none := by
  obtain ⟨others, hwords⟩ := hg
  obtain ⟨x, htext, hx⟩ : ∃ x, g.text = w ++ x ∧ ∀ c ∈ x.head?, parts c = true := by
    rw [Group.text, ← hwords, List.singleton_append]
    by_cases hnil : others = []
    · exact ⟨[], by rw [hnil, Text.join_singleton, List.append_nil], by rintro _ ⟨⟩⟩
    · refine ⟨' ' :: Text.join [' '] others, Text.join_cons w hnil, fun c hc => ?_⟩
      obtain rfl : ' ' = c := Option.some.inj hc
      decide +kernel
  have hmem : w ∈ wholeWords (itemName (takeNote g.text).text) := by
    rw [wholeWords_itemName, htext]
    exact List.mem_filter.mpr ⟨h.mem_wholeWords_takeNote hx, by simpa using h.kept⟩
  have hne : itemName (takeNote g.text).text ≠ [] := by
    intro hnil
    rw [hnil] at hmem
    cases hmem
  simp [Group.addition?, hne]

end Solid

/-- The words that have been collected begin a group. -/
theorem exists_mem_groupsFrom (limits : Limits) {r : Reading} (tokens : List Text) (hr : r.words ≠ []) :
    ∃ g ∈ groupsFrom limits r tokens, r.words <+: g.words := by
  fun_induction groupsFrom limits r tokens with
  | case1 r =>
    rw [group_of_ne_nil hr]
    exact ⟨_, List.mem_singleton_self _, List.prefix_rfl⟩
  | case2 r token rest _ ih =>
    obtain ⟨g, hg, hprefix⟩ := ih (List.append_ne_nil_of_left_ne_nil hr _)
    exact ⟨g, hg, (List.prefix_append _ _).trans hprefix⟩
  | case3 r token rest _ n _ ih =>
    rw [group_of_ne_nil hr]
    exact ⟨_, List.mem_append_left _ (List.mem_singleton_self _), List.prefix_rfl⟩
  | case4 r token rest _ _ _ ih => exact ih hr
  | case5 r token rest _ _ _ ih =>
    obtain ⟨g, hg, hprefix⟩ := ih (List.append_ne_nil_of_left_ne_nil hr _)
    exact ⟨g, hg, (List.prefix_append _ _).trans hprefix⟩

/-- **Items to add that open with a solid word** are not nothing. -/
theorem Solid.addEntries_ne_nil (h : Solid limits w) (hrest : ∀ c ∈ rest.head?, isBlank c = true) :
    (segments (w ++ rest)).flatMap (addEntries limits) ≠ [] := by
  obtain ⟨p, others, hpieces, hp⟩ := pieces_word_append (w := w) (fun c hc =>
    ⟨h.isBlank_eq_false hc, fun heq => h.notMem (by decide +kernel) (heq ▸ hc)⟩) hrest
  have hwords : Text.words (w ++ p) = w :: Text.words p := h.isField_isBlank.fields_append hp
  have hgroups : groups limits (w ++ p) = groupsFrom limits (Reading.start.keep w) (Text.words p) := by
    rw [groups, hwords]
    exact groupsFrom_cons_plain rfl (h.notMem (by decide +kernel))
      (fun hafter => absurd hafter Bool.false_ne_true) h.plain
  obtain ⟨g, hg, hprefix⟩ := exists_mem_groupsFrom limits (r := Reading.start.keep w)
    (Text.words p) (List.cons_ne_nil w [])
  obtain ⟨e, he⟩ := Option.ne_none_iff_exists'.mp (h.addition?_ne_none hprefix)
  have hmem : e ∈ addEntries limits (w ++ p) := by
    rw [addEntries, hgroups]
    exact List.mem_filterMap.mpr ⟨g, hg, he⟩
  rw [flatMap_segments, hpieces, List.flatMap_cons]
  exact List.append_ne_nil_of_left_ne_nil (List.ne_nil_of_mem hmem) _

/-- The verbs of adjusting are solid. -/
theorem solid_of_mem_changeVerbs (hv : v ∈ changeVerbs) : Solid limits v := by
  have hall : ∀ v ∈ changeVerbs, v ≠ [] ∧ v.all Text.isWordChar = true ∧
      v.all Text.isAsciiDigit = false ∧ numberWord? v = none ∧ v ∉ fillerWords ∧ v ∉ stopWords := by
    decide +kernel
  obtain ⟨hne, hword, hdigits, hnumber, hfiller, hstop⟩ := hall v hv
  refine ⟨⟨hne, fun c hc => ?_⟩, ⟨?_, hfiller⟩, hstop⟩
  · rw [parts, List.all_eq_true.mp hword c hc]
    rfl
  · rw [quantity?, hdigits, Bool.and_false, if_neg Bool.false_ne_true, hnumber]

/-- No softener opens with a verb of adjusting. -/
theorem dropSoftener_changeVerb (hv : v ∈ changeVerbs) (rest : Text) :
    dropSoftener (v ++ rest) = v ++ rest := by
  have hnone : afterPhrase? softeners (v ++ rest) = none := by
    simp only [changeVerbs, increaseVerbs, decreaseVerbs, List.cons_append, List.nil_append,
      List.mem_cons, List.not_mem_nil, or_false] at hv
    rcases hv with rfl | rfl | rfl | rfl | rfl <;> rfl
  rw [dropSoftener, hnone]

/-! ## The kind of a command -/

/-- What the command asks to be done. -/
def Intent.operation : Intent → Operation
  | remove _ => .remove
  | adjust .. => .adjust
  | add _ => .add

/-- All entries of a plan are of the kind of the command. -/
theorem Intent.operation_entries (limits : Limits) (raw : Text) (i : Intent) :
    (i.plan limits raw).entries.map Entry.operation =
      List.replicate (i.plan limits raw).entryCount i.operation := by
  refine List.eq_replicate_iff.mpr ⟨by rw [List.length_map, Plan.length_entries],
    List.forall_mem_map.mpr (forall_mem_entries.mpr ?_)⟩
  cases i with
  | remove items => exact ⟨nofun, fun _ _ => rfl, nofun⟩
  | adjust up token items => exact ⟨fun _ _ => rfl, nofun, nofun⟩
  | add items => exact ⟨nofun, nofun, fun _ _ => rfl⟩

/-- **A command that asks for nothing is of the kind that its beginning tells.** -/
theorem operation_of_entries_eq_nil {raw : Text}
    (h : ((intent t).plan limits raw).entries = []) :
    (intent t).operation =
      if opensRemoval t then .remove else if opensChange t then .adjust else .add := by
  unfold intent at h ⊢
  rw [opensRemoval]
  split at h
  · next items hremoval => rw [hremoval]; rfl
  · next hremoval =>
    rw [hremoval]
    split at h
    · next token items hadjust =>
      rw [opensChange_of_adjustment? (List.subset_append_left _ _) hadjust]
      rfl
    · split at h
      · next token items hadjust =>
        rw [opensChange_of_adjustment? (List.subset_append_right _ _) hadjust]
        rfl
      · -- a verb of adjusting would be the name of something to add
        have hnot : opensChange t = false := by
          refine Bool.eq_false_iff.mpr fun hchange => ?_
          obtain ⟨v, hv, rest, rfl, hblank⟩ := opensChange_iff.mp hchange
          have hrest : ∀ c ∈ rest.head?, isBlank c = true := by
            obtain ⟨b, after, rfl, hb⟩ := Text.startsBlank_eq_true_iff.mp hblank
            intro c hc
            obtain rfl : b = c := Option.some.inj hc
            exact hb
          rw [dropSoftener_changeVerb hv] at h
          have hadd : (segments (v ++ rest)).flatMap (addEntries limits) = [] := by
            simpa [Intent.plan, Plan.empty, Plan.entries] using h
          exact (solid_of_mem_changeVerbs hv).addEntries_ne_nil hrest hadd
        rw [hnot]
        rfl

/-- Commands that begin alike and ask for nothing are of one kind. -/
theorem operation_congr {raw raw' : Text} (hs : Text.SingleSpaced s) (ht : Text.SingleSpaced t)
    (hn : 9 ≤ n) (h : s.take n = t.take n) (hs' : ((intent s).plan limits raw).entries = [])
    (ht' : ((intent t).plan limits raw').entries = []) :
    (intent s).operation = (intent t).operation := by
  rw [operation_of_entries_eq_nil hs', operation_of_entries_eq_nil ht',
    opensRemoval_congr hs ht hn h, opensChange_congr hn h]

end SpokenList.Utterance
