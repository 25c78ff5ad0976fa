import SpokenList.Proofs.Words
import SpokenList.Utterance.Segment

/-! # Delimiters

A delimiter stands at the start of a text if a comma does, after blanks or not, or a
joining word between blanks (`delimiterLength?_isSome`).  So a text has one somewhere
if and only if it has a comma, or a joining word between blanks (`delimited_iff`).

What follows a text matters to the delimiters in it only where one may go on: a
delimiter goes on over blanks, so it is enough that the text does not end with a
blank and that what follows is none, or that the text ends neither with a comma nor
with a joining word after a blank (`delimiterLength?_append`).
-/
namespace SpokenList.Utterance

open Text (isBlank startsBlank dropBlanks)

variable {b c : Char} {n : Nat} {s t u w rest blanks : Text}

/-! ## Joining words -/

theorem isField_of_mem_joiningWords (h : w ∈ joiningWords) : Text.IsField isBlank w := by
  have hall : ∀ w ∈ joiningWords, w ≠ [] ∧ w.all (!isBlank ·) = true := by decide
  refine ⟨(hall w h).1, fun c hc => ?_⟩
  simpa using List.all_eq_true.mp (hall w h).2 c hc

theorem comma_notMem_of_mem_joiningWords (h : w ∈ joiningWords) : ',' ∉ w := by
  have hall : ∀ w ∈ joiningWords, ',' ∉ w := by decide
  exact hall w h

theorem head?_joiner (hw : w ∈ joiningWords) (rest : Text) :
    ∀ c ∈ (w ++ rest).head?, isBlank c = false ∧ c ≠ ',' := by
  have hfield := isField_of_mem_joiningWords hw
  intro c hc
  rw [List.head?_append_of_ne_nil _ hfield.1] at hc
  have hmem : c ∈ w := List.mem_of_mem_head? hc
  exact ⟨hfield.2 c hmem, fun hcomma => comma_notMem_of_mem_joiningWords hw (hcomma ▸ hmem)⟩

/-- What is read as a joiner is a joining word with the blanks after it. -/
theorem exists_of_joinerLength? (h : joinerLength? t = some n) :
    ∃ w ∈ joiningWords, ∃ rest, t = w ++ rest ∧ startsBlank rest = true ∧
      n = w.length + (rest.takeWhile isBlank).length := by
  obtain ⟨w, hw, hread⟩ := List.exists_of_findSome?_eq_some h
  obtain ⟨rest, hafter, hrest⟩ := Option.bind_eq_some_iff.mp hread
  split at hrest
  · rename_i hblank
    exact ⟨w, hw, rest, (Text.after?_eq_some_iff.mp hafter).symm, hblank, (Option.some.inj hrest).symm⟩
  · cases hrest

/-- A joining word is read where blanks follow it. -/
theorem joinerLength?_append_of_mem (hw : w ∈ joiningWords) (hrest : startsBlank rest = true) :
    joinerLength? (w ++ rest) = some (w.length + (rest.takeWhile isBlank).length) := by
  have hsome : (joinerLength? (w ++ rest)).isSome = true := by
    rw [joinerLength?, List.findSome?_isSome_iff]
    refine ⟨w, hw, ?_⟩
    rw [Text.after?_append_self]
    show (if startsBlank rest = true then some _ else none).isSome = true
    rw [hrest]
    rfl
  obtain ⟨n, hn⟩ := Option.isSome_iff_exists.mp hsome
  obtain ⟨v, hv, others, hsplit, hothers, rfl⟩ := exists_of_joinerLength? hn
  have hhead (t : Text) (ht : startsBlank t = true) : ∀ c ∈ t.head?, isBlank c = true := by
    intro c hc
    obtain ⟨d, rest, rfl, hd⟩ := Text.startsBlank_eq_true_iff.mp ht
    obtain rfl := Option.some.inj hc
    exact hd
  -- the words have no blanks, so only one of them can be read
  obtain ⟨rfl, rfl⟩ := (isField_of_mem_joiningWords hw).append_inj (isField_of_mem_joiningWords hv)
    (hhead rest hrest) (hhead others hothers) hsplit
  exact hn

/-! ## Where a delimiter is read -/

theorem delimiterLength?_comma (t : Text) : (delimiterLength? (',' :: t)).isSome = true := rfl

/-- A comma is a delimiter with the blanks around it. -/
theorem delimiterLength?_blanks_comma (hblanks : ∀ c ∈ blanks, isBlank c = true) (rest : Text) :
    delimiterLength? (blanks ++ ',' :: rest) =
      some (blanks.length + 1 + (rest.takeWhile isBlank).length) := by
  obtain ⟨htake, hdrop⟩ := Text.takeWhile_blanks_append (t := ',' :: rest) hblanks
    fun c hc => by obtain rfl := Option.some.inj hc; decide
  rw [delimiterLength?, htake, hdrop]
  rfl

/-- Anything else is a delimiter if it is a joining word, with blanks before it. -/
theorem delimiterLength?_word (hblanks : ∀ c ∈ blanks, isBlank c = true)
    (ht : ∀ c ∈ t.head?, isBlank c = false ∧ c ≠ ',') :
    delimiterLength? (blanks ++ t) =
      if blanks = [] then none else (joinerLength? t).map (blanks.length + ·) := by
  obtain ⟨htake, hdrop⟩ := Text.takeWhile_blanks_append hblanks fun c hc => (ht c hc).1
  have hstarts : startsBlank (blanks ++ t) = true ↔ blanks ≠ [] := by
    cases blanks with
    | nil =>
      cases t with
      | nil => simp [startsBlank]
      | cons c rest => simp [startsBlank, ht c rfl]
    | cons c rest => simp [startsBlank, hblanks c (by simp)]
  rw [delimiterLength?, htake, hdrop]
  split
  · exact absurd rfl (ht ',' rfl).2
  · by_cases hnil : blanks = []
    · rw [if_pos hnil, if_neg (by rw [hstarts]; simp [hnil])]
    · rw [if_neg hnil, if_pos (hstarts.mpr hnil)]

/-- A delimiter is read where one stands. -/
theorem delimiterLength?_isSome :
    (delimiterLength? t).isSome = true ↔ ∃ blanks rest, (∀ c ∈ blanks, isBlank c = true) ∧
      (t = blanks ++ ',' :: rest ∨ blanks ≠ [] ∧
        ∃ w ∈ joiningWords, ∃ c, isBlank c = true ∧ t = blanks ++ (w ++ c :: rest)) := by
  constructor
  · intro h
    have hsplit : t.takeWhile isBlank ++ t.dropWhile isBlank = t := List.takeWhile_append_dropWhile
    have hblanks : ∀ c ∈ t.takeWhile isBlank, isBlank c = true := fun c hc =>
      List.mem_takeWhile_imp hc
    by_cases hcomma : ',' ∈ (t.dropWhile isBlank).head?
    · obtain ⟨rest, hrest⟩ := List.head?_eq_some_iff.mp hcomma
      exact ⟨_, rest, hblanks, Or.inl (by rw [← hrest, hsplit])⟩
    · have hword : ∀ c ∈ (t.dropWhile isBlank).head?, isBlank c = false ∧ c ≠ ',' := by
        intro c hc
        have hnot := List.head?_dropWhile_not isBlank t
        rw [hc] at hnot
        refine ⟨by simpa using hnot, ?_⟩
        rintro rfl
        exact hcomma hc
      rw [← hsplit, delimiterLength?_word hblanks hword] at h
      split at h
      · cases h
      · rename_i hne
        rw [Option.isSome_map] at h
        obtain ⟨n, hn⟩ := Option.isSome_iff_exists.mp h
        obtain ⟨w, hw, rest, hrest, hblank, _⟩ := exists_of_joinerLength? hn
        obtain ⟨c, rest, rfl, hc⟩ := Text.startsBlank_eq_true_iff.mp hblank
        exact ⟨_, rest, hblanks, Or.inr ⟨hne, w, hw, c, hc, by rw [← hrest, hsplit]⟩⟩
  · rintro ⟨blanks, rest, hblanks, rfl | ⟨hne, w, hw, c, hc, rfl⟩⟩
    · rw [delimiterLength?_blanks_comma hblanks]
      rfl
    · have hblank : startsBlank (c :: rest) = true := hc
      rw [delimiterLength?_word hblanks (head?_joiner hw _), if_neg hne,
        joinerLength?_append_of_mem hw hblank]
      rfl

theorem prefix_of_notMem (h : s <+: t ++ b :: u) (hb : b ∉ s) : s <+: t := by
  rcases List.prefix_or_prefix_of_prefix h (List.prefix_append t (b :: u)) with h' | ⟨v, rfl⟩
  · exact h'
  · cases v with
    | nil =>
      simp
    | cons c v =>
      have hc := (List.cons_prefix_cons.mp ((List.prefix_append_right_inj t).mp h)).1
      exact absurd (by simp [hc]) hb

/-- A delimiter stands whole before a character that no delimiter has. -/
theorem isSome_of_isSome_append (hblank : isBlank b = false) (hcomma : b ≠ ',')
    (hb : ∀ w ∈ joiningWords, b ∉ w) (h : (delimiterLength? (t ++ b :: u)).isSome = true) :
    (delimiterLength? t).isSome = true := by
  have hnot {blanks : Text} (hblanks : ∀ c ∈ blanks, isBlank c = true) : b ∉ blanks := by
    intro hmem
    rw [hblanks b hmem] at hblank
    cases hblank
  obtain ⟨blanks, rest, hblanks, hsplit | ⟨hne, w, hw, c, hc, hsplit⟩⟩ :=
    delimiterLength?_isSome.mp h
  · have hfront : blanks ++ [','] <+: t ++ b :: u := ⟨rest, by simp [hsplit]⟩
    obtain ⟨others, rfl⟩ := prefix_of_notMem hfront (by simp [hnot hblanks, hcomma])
    exact delimiterLength?_isSome.mpr ⟨blanks, others, hblanks, Or.inl (by simp)⟩
  · have hfront : blanks ++ w ++ [c] <+: t ++ b :: u := ⟨rest, by simp [hsplit]⟩
    have hbc : b ∉ [c] := hnot (by simpa using hc)
    obtain ⟨others, rfl⟩ := prefix_of_notMem hfront (by
      rw [List.mem_append, List.mem_append]
      exact not_or.mpr ⟨not_or.mpr ⟨hnot hblanks, hb w hw⟩, hbc⟩)
    exact delimiterLength?_isSome.mpr
      ⟨blanks, others, hblanks, Or.inr ⟨hne, w, hw, c, hc, by simp⟩⟩

/-- Somewhere in the text there is a comma, or a joining word between blanks. -/
def Delimited (t : Text) : Prop :=
  ',' ∈ t ∨ ∃ w ∈ joiningWords, ∃ c d, isBlank c = true ∧ isBlank d = true ∧
    (c :: (w ++ [d])) <:+: t

theorem Delimited.of_isInfix (h : Delimited t) (ht : t <:+: u) : Delimited u := by
  rcases h with hcomma | ⟨w, hw, c, d, hc, hd, hinfix⟩
  · exact Or.inl (ht.subset hcomma)
  · exact Or.inr ⟨w, hw, c, d, hc, hd, hinfix.trans ht⟩

theorem delimited_iff : Delimited t ↔ ∃ u, u <:+ t ∧ (delimiterLength? u).isSome = true := by
  constructor
  · rintro (hcomma | ⟨w, hw, c, d, hc, hd, s, x, rfl⟩)
    · obtain ⟨s, rest, rfl⟩ := List.append_of_mem hcomma
      exact ⟨_, List.suffix_append s _, delimiterLength?_comma rest⟩
    · refine ⟨c :: (w ++ d :: x), ⟨s, by simp⟩, delimiterLength?_isSome.mpr ?_⟩
      exact ⟨[c], x, by simpa using hc, Or.inr ⟨by simp, w, hw, d, hd, rfl⟩⟩
  · rintro ⟨u, hu, h⟩
    obtain ⟨blanks, rest, hblanks, rfl | ⟨hne, w, hw, d, hd, rfl⟩⟩ := delimiterLength?_isSome.mp h
    · exact Or.inl (hu.subset (by simp))
    · -- of the blanks in front the last one stands next to the word
      obtain rfl | ⟨front, c, rfl⟩ := List.eq_nil_or_concat blanks
      · exact absurd rfl hne
      · exact Or.inr ⟨w, hw, c, d, hblanks c (by simp), hd,
          List.IsInfix.trans ⟨front, rest, by simp⟩ hu.isInfix⟩

theorem joinerLength?_le (h : joinerLength? t = some n) : n ≤ t.length := by
  obtain ⟨w, _, rest, rfl, _, rfl⟩ := exists_of_joinerLength? h
  have hle := (List.takeWhile_prefix (l := rest) isBlank).length_le
  rw [List.length_append]
  omega

theorem delimiterLength?_le (h : delimiterLength? t = some n) : n ≤ t.length := by
  obtain ⟨blanks, v, rfl, hblanks, hv⟩ := Text.exists_blanks_append t
  by_cases hcomma : ',' ∈ v.head?
  · obtain ⟨rest, rfl⟩ := List.head?_eq_some_iff.mp hcomma
    rw [delimiterLength?_blanks_comma hblanks] at h
    obtain rfl := Option.some.inj h
    have hle := (List.takeWhile_prefix (l := rest) isBlank).length_le
    rw [List.length_append, List.length_cons]
    omega
  · have hword : ∀ c ∈ v.head?, isBlank c = false ∧ c ≠ ',' := fun c hc =>
      ⟨hv c hc, fun h => hcomma (h ▸ hc)⟩
    rw [delimiterLength?_word hblanks hword] at h
    split at h
    · cases h
    · obtain ⟨m, hm, rfl⟩ := Option.map_eq_some_iff.mp h
      have hle := joinerLength?_le hm
      rw [List.length_append]
      omega

/-! ## What comes after a text -/

/-- Whether a joining word is read at the start of a text does not depend on what comes
after the text, unless all of it is such a word and a blank comes after it. -/
theorem joinerLength?_append (hu : u ≠ []) (hlast : ∀ c ∈ u.getLast?, isBlank c = false)
    (hb : ∀ w ∈ joiningWords, b ∉ w) (hword : isBlank b = true → u ∉ joiningWords) (x : Text) :
    joinerLength? (u ++ b :: x) = joinerLength? u := by
  rw [joinerLength?, joinerLength?, ← List.head?_filterMap, ← List.head?_filterMap]
  refine congrArg List.head? (List.filterMap_congr fun w hw => ?_)
  cases hafter : Text.after? w u with
  | some rest =>
    obtain rfl := Text.after?_eq_some_iff.mp hafter
    rw [List.append_assoc, Text.after?_append_self]
    cases rest with
    | nil =>
      have hnot : isBlank b = false := by
        rw [← Bool.not_eq_true]
        exact fun hblank => hword hblank (by rwa [List.append_nil])
      show (if isBlank b = true then _ else none) = none
      rw [hnot]
      rfl
    | cons c rest =>
      have hlast' : ∀ d ∈ (c :: rest).getLast?, isBlank d = false := fun d hd =>
        hlast d (by rwa [List.getLast?_append_of_ne_nil _ (List.cons_ne_nil c rest)])
      have htake := (Text.takeWhile_append_of_last (List.cons_ne_nil c rest) hlast' (b :: x)).1
      show (if isBlank c = true then some _ else none) = if isBlank c = true then some _ else none
      rw [htake]
  | none =>
    cases hmore : Text.after? w (u ++ b :: x) with
    | none => rfl
    | some rest =>
      -- the word would reach over the end of the text, but `b` is not part of it
      rcases List.append_eq_append_iff.mp (Text.after?_eq_some_iff.mp hmore) with
        ⟨v, rfl, _⟩ | ⟨v, rfl, hv⟩
      · rw [Text.after?_append_self] at hafter
        cases hafter
      · cases v with
        | nil =>
          have hself := Text.after?_append_self u []
          rw [List.append_nil] at hself hafter
          rw [hself] at hafter
          cases hafter
        | cons d others =>
          obtain ⟨rfl, _⟩ := List.cons.inj hv
          exact absurd (by simp) (hb _ hw)

/-- No delimiter that starts in the text reaches its end, if a blank follows. -/
def EndsApart (s : Text) : Prop :=
  (∀ c ∈ s.getLast?, c ≠ ',') ∧ ∀ w ∈ joiningWords, ∀ c, isBlank c = true → ¬ (c :: w) <:+ s

theorem EndsApart.of_suffix (h : EndsApart s) (hu : u <:+ s) (hne : u ≠ []) : EndsApart u := by
  obtain ⟨front, rfl⟩ := hu
  refine ⟨fun c hc => h.1 c (by rwa [List.getLast?_append_of_ne_nil _ hne]), ?_⟩
  exact fun w hw c hc hsuffix => h.2 w hw c hc (hsuffix.trans (List.suffix_append front u))

/-- A delimiter is read the same whatever comes after the text, if none goes on there. -/
theorem delimiterLength?_append (hu : u ≠ []) (hlast : ∀ c ∈ u.getLast?, isBlank c = false)
    (hb : ∀ w ∈ joiningWords, b ∉ w) (hends : isBlank b = true → EndsApart u) (x : Text) :
    delimiterLength? (u ++ b :: x) = delimiterLength? u := by
  obtain ⟨blanks, v, rfl, hblanks, hv⟩ := Text.exists_blanks_append u
  have hne : v ≠ [] := by
    rintro rfl
    rw [List.append_nil] at hu hlast
    have hblank := hblanks _ (List.getLast_mem hu)
    rw [hlast _ (List.getLast?_eq_some_getLast hu)] at hblank
    cases hblank
  rw [List.getLast?_append_of_ne_nil _ hne] at hlast
  rw [List.append_assoc]
  by_cases hcomma : ',' ∈ v.head?
  · obtain ⟨rest, rfl⟩ := List.head?_eq_some_iff.mp hcomma
    have htake : (rest ++ b :: x).takeWhile isBlank = rest.takeWhile isBlank := by
      by_cases hrest : rest = []
      · subst hrest
        refine List.takeWhile_cons_of_neg fun hblank => ?_
        exact (hends hblank).1 ',' (by simp) rfl
      · refine (Text.takeWhile_append_of_last hrest (fun c hc => hlast c ?_) _).1
        rwa [List.getLast?_cons_of_ne_nil hrest]
    rw [List.cons_append, delimiterLength?_blanks_comma hblanks,
      delimiterLength?_blanks_comma hblanks, htake]
  · have hword : ∀ c ∈ v.head?, isBlank c = false ∧ c ≠ ',' := fun c hc =>
      ⟨hv c hc, fun h => hcomma (h ▸ hc)⟩
    have hword' : ∀ c ∈ (v ++ b :: x).head?, isBlank c = false ∧ c ≠ ',' := by
      rwa [List.head?_append_of_ne_nil _ hne]
    rw [delimiterLength?_word hblanks hword, delimiterLength?_word hblanks hword']
    obtain rfl | ⟨front, c, rfl⟩ := List.eq_nil_or_concat blanks
    · rfl
    · rw [joinerLength?_append hne hlast hb fun hblank hv => ?_]
      exact (hends hblank).2 v hv c (hblanks c (by simp)) ⟨front, by simp⟩

end SpokenList.Utterance
