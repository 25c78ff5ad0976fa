import Mathlib.Data.List.Chain
import SpokenList.Proofs.Trimming

/-! # Runs of characters and the blanks between them

The words of a text are its runs between blanks.  Runs between other separators
obey the same laws, so these are stated for any (`Text.fields`): fields are cut
at a separator (`fields_append_cons`), and a text is read from field to field
(`fields_induction`).

`Text.collapse` leaves the words as they are (`words_collapse`) and so the fields
for any separators that include the blanks (`fields_collapse`).  It changes
exactly the texts that have blanks other than single spaces between words
(`collapse_eq_self_iff`).
-/
namespace SpokenList.Text

variable {p q : Char → Bool} {c d : Char} {s t u v w blanks : Text} {ws : List Text}

/-! ## Fields -/

/-- The maximal runs of characters that are no separators, in order. -/
def fields (p : Char → Bool) (t : Text) : List Text := (t.splitOnP p).filter (!·.isEmpty)

/-- The text has no separator, but it has a character. -/
def IsField (p : Char → Bool) (w : Text) : Prop := w ≠ [] ∧ ∀ c ∈ w, p c = false

theorem words_eq_fields (t : Text) : words t = fields isBlank t := rfl

@[simp] theorem fields_nil (p : Char → Bool) : fields p [] = [] := rfl

/-- **Fields are cut at a separator.**  All else about them follows from this. -/
theorem fields_append_cons (hc : p c = true) (s t : Text) :
    fields p (s ++ c :: t) = fields p s ++ fields p t := by
  rw [fields, List.splitOnP_append_cons s t hc, List.filter_append, fields, fields]

/-- A blank stands between words. -/
theorem words_append_cons (hc : isBlank c = true) (s t : Text) :
    words (s ++ c :: t) = words s ++ words t := fields_append_cons hc s t

theorem fields_cons (hc : p c = true) (t : Text) : fields p (c :: t) = fields p t :=
  fields_append_cons hc [] t

theorem IsField.fields (hw : IsField p w) : fields p w = [w] := by
  rw [Text.fields, List.splitOnP_eq_singleton hw.2, List.filter_cons_of_pos (by simpa using hw.1),
    List.filter_nil]

/-- The first word ends where the first blank stands. -/
theorem IsField.words_append_cons (hw : IsField isBlank w) (hc : isBlank c = true) (t : Text) :
    words (w ++ c :: t) = w :: words t := by
  rw [Text.words_append_cons hc, words_eq_fields w, hw.fields, List.singleton_append]

theorem fields_append_of_separators (hs : ∀ c ∈ s, p c = true) (t : Text) :
    fields p (s ++ t) = fields p t := by
  induction s with
  | nil => rfl
  | cons c rest ih =>
    rw [List.cons_append, fields_cons (hs c (by simp)), ih fun d hd => hs d (by simp [hd])]

theorem append_fields_of_separators (hs : ∀ c ∈ s, p c = true) (t : Text) :
    fields p (t ++ s) = fields p t := by
  cases s with
  | nil => rw [List.append_nil]
  | cons c rest =>
    have hrest := fields_append_of_separators (s := rest) (fun d hd => hs d (by simp [hd])) []
    rw [List.append_nil, fields_nil] at hrest
    rw [fields_append_cons (hs c (by simp)), hrest, List.append_nil]

/-- What ends with a separator is read apart from what follows. -/
theorem fields_append_of_last (hs : ∀ c ∈ s.getLast?, p c = true) (t : Text) :
    fields p (s ++ t) = fields p s ++ fields p t := by
  obtain rfl | ⟨front, c, rfl⟩ := List.eq_nil_or_concat' s
  · rfl
  · have hc : p c = true := hs c (by simp)
    rw [List.append_assoc, List.singleton_append, fields_append_cons hc, fields_append_cons hc,
      fields_nil, List.append_nil]

/-- Taking separators off the ends leaves the fields as they are. -/
theorem fields_trim (h : ∀ c, q c = true → p c = true) (t : Text) :
    fields p (trim q t) = fields p t := by
  obtain ⟨front, back, ht, hfront, hback⟩ := eq_append_trim_append q t
  calc fields p (trim q t) = fields p (front ++ trim q t) :=
        (fields_append_of_separators (fun c hc => h c (hfront c hc)) _).symm
    _ = fields p (front ++ trim q t ++ back) :=
        (append_fields_of_separators (fun c hc => h c (hback c hc)) _).symm
    _ = fields p t := by rw [← ht]

/-- A field at the start of a text is the first one, if it ends there. -/
theorem IsField.fields_append (hw : IsField p w) (ht : ∀ c ∈ t.head?, p c = true) :
    Text.fields p (w ++ t) = w :: Text.fields p t := by
  cases t with
  | nil => rw [List.append_nil, hw.fields, fields_nil]
  | cons c rest =>
    rw [fields_append_cons (ht c rfl), hw.fields, fields_cons (ht c rfl)]
    rfl

/-- **A text is read from field to field.**  It is empty, or it starts with a
separator, or with a field that ends where a separator or nothing follows. -/
theorem fields_induction {motive : Text → Prop} (p : Char → Bool) (nil : motive [])
    (separator : ∀ c t, p c = true → motive t → motive (c :: t))
    (field : ∀ w t, IsField p w → (∀ c ∈ t.head?, p c = true) → motive t → motive (w ++ t))
    (t : Text) : motive t := by
  induction hlength : t.length using Nat.strong_induction_on generalizing t with
  | _ n ih =>
    cases t with
    | nil => exact nil
    | cons c rest =>
      cases hc : p c with
      | true => exact separator c rest hc (ih rest.length (by simp [← hlength]) rest rfl)
      | false =>
        -- the field reaches up to the first separator, and is at least `c`
        have hsplit : (c :: rest).takeWhile (!p ·) ++ (c :: rest).dropWhile (!p ·) = c :: rest :=
          List.takeWhile_append_dropWhile
        have hfirst : (c :: rest).takeWhile (!p ·) = c :: rest.takeWhile (!p ·) :=
          List.takeWhile_cons_of_pos (by simp [hc])
        have hshorter : ((c :: rest).dropWhile (!p ·)).length < n := by
          rw [← hlength, List.dropWhile_cons_of_pos (by simp [hc])]
          exact Nat.lt_succ_of_le (List.length_dropWhile_le _ rest)
        rw [← hsplit]
        refine field _ _ ⟨by simp [hfirst], ?_⟩ ?_ (ih _ hshorter _ rfl)
        · intro d hd
          simpa using List.mem_takeWhile_imp hd
        · intro d hd
          have hnot := List.head?_dropWhile_not (!p ·) (c :: rest)
          rw [hd] at hnot
          simpa using hnot

theorem mem_fields (h : w ∈ fields p t) : IsField p w ∧ ∀ c ∈ w, c ∈ t := by
  induction t using fields_induction p with
  | nil => cases h
  | separator c t hc ih =>
    rw [fields_cons hc] at h
    obtain ⟨hw, hsub⟩ := ih h
    exact ⟨hw, fun d hd => List.mem_cons_of_mem c (hsub d hd)⟩
  | field v t hv ht ih =>
    rw [hv.fields_append ht] at h
    rcases List.mem_cons.mp h with rfl | h
    · exact ⟨hv, fun d hd => List.mem_append_left t hd⟩
    · obtain ⟨hw, hsub⟩ := ih h
      exact ⟨hw, fun d hd => List.mem_append_right v (hsub d hd)⟩

/-- Fields for more separators are the fields of the fields. -/
theorem fields_eq_flatMap (h : ∀ c, q c = true → p c = true) (t : Text) :
    fields p t = (fields q t).flatMap (fields p) := by
  induction t using fields_induction q with
  | nil => rfl
  | separator c t hc ih => rw [fields_cons (h c hc), fields_cons hc, ih]
  | field w t hw ht ih =>
    rw [hw.fields_append ht, List.flatMap_cons, ← ih]
    cases t with
    | nil => rw [List.append_nil, fields_nil, List.append_nil]
    | cons c rest =>
      have hc : p c = true := h c (ht c rfl)
      rw [fields_append_cons hc, fields_cons hc]

/-- A text has only one field at its start. -/
theorem IsField.append_inj (hv : IsField p v) (hw : IsField p w)
    (hs : ∀ c ∈ s.head?, p c = true) (ht : ∀ c ∈ t.head?, p c = true)
    (h : v ++ s = w ++ t) : v = w ∧ s = t := by
  have hfields := congrArg (Text.fields p) h
  rw [hv.fields_append hs, hw.fields_append ht] at hfields
  obtain rfl := (List.cons.inj hfields).1
  exact ⟨rfl, List.append_cancel_left h⟩

/-- Where no separator stands between them, what follows goes on with the last field. -/
theorem exists_fields_append (ht : t ≠ []) (hlast : ∀ c ∈ t.getLast?, p c = false)
    (hs : ∀ c ∈ s, p c = false) :
    ∃ before w, fields p t = before ++ [w] ∧ fields p (t ++ s) = before ++ [w ++ s] := by
  induction t using fields_induction p with
  | nil => exact absurd rfl ht
  | separator c t hc ih =>
    have hne : t ≠ [] := by
      rintro rfl
      exact absurd (hlast c rfl) (by simp [hc])
    obtain ⟨before, w, hfields, happend⟩ := ih hne fun d hd =>
      hlast d (by rwa [List.getLast?_cons_of_ne_nil hne])
    exact ⟨before, w, (fields_cons hc t).trans hfields, (fields_cons hc (t ++ s)).trans happend⟩
  | field v t hv hsep ih =>
    by_cases hne : t = []
    · subst hne
      have hvs : IsField p (v ++ s) := by
        refine ⟨by simp [hv.1], fun d hd => ?_⟩
        rcases List.mem_append.mp hd with hd | hd
        · exact hv.2 d hd
        · exact hs d hd
      rw [List.append_nil]
      exact ⟨[], v, hv.fields, hvs.fields⟩
    · obtain ⟨before, w, hfields, happend⟩ := ih hne fun d hd =>
        hlast d (by rwa [List.getLast?_append_of_ne_nil _ hne])
      refine ⟨v :: before, w, ?_, ?_⟩
      · rw [hv.fields_append hsep, hfields, List.cons_append]
      · rw [List.append_assoc, hv.fields_append ?_, happend, List.cons_append]
        rwa [List.head?_append_of_ne_nil _ hne]

/-- A text that starts with no separator starts with its first field. -/
theorem exists_fields_cons (hc : p c = false) (t : Text) :
    ∃ w rest, fields p (c :: t) = (c :: w) :: rest := by
  generalize h : c :: t = u
  induction u using fields_induction p with
  | nil => cases h
  | separator d u hd _ =>
    obtain ⟨rfl, -⟩ := List.cons.inj h
    rw [hc] at hd
    cases hd
  | field w u hw hu _ =>
    obtain ⟨d, others, rfl⟩ := List.exists_cons_of_ne_nil hw.1
    obtain ⟨rfl, -⟩ := List.cons.inj h
    exact ⟨others, fields p u, hw.fields_append hu⟩

/-- Together the fields are the characters that are no separators. -/
theorem flatten_fields (p : Char → Bool) (t : Text) :
    (fields p t).flatten = t.filter (!p ·) := by
  induction t using fields_induction p with
  | nil => rfl
  | separator c t hc ih => rw [fields_cons hc, List.filter_cons_of_neg (by simp [hc]), ih]
  | field w t hw ht ih =>
    have hall : w.filter (!p ·) = w := List.filter_eq_self.mpr fun c hc => by simp [hw.2 c hc]
    rw [hw.fields_append ht, List.flatten_cons, ih, List.filter_append, hall]

/-! ## Joined words -/

theorem join_singleton (w : Text) : join [' '] [w] = w := List.intercalate_singleton

theorem join_cons (w : Text) (hws : ws ≠ []) :
    join [' '] (w :: ws) = w ++ ' ' :: join [' '] ws := by
  obtain ⟨v, rest, rfl⟩ := List.exists_cons_of_ne_nil hws
  rw [join, List.intercalate_cons_cons, List.append_assoc]
  rfl

theorem join_eq_nil_iff (h : ∀ w ∈ ws, IsField p w) : join [' '] ws = [] ↔ ws = [] := by
  cases ws with
  | nil => exact iff_of_true rfl rfl
  | cons w rest =>
    have hw : w ≠ [] := (h w (by simp)).1
    by_cases hrest : rest = []
    · simp [hrest, join_singleton, hw]
    · simp [join_cons w hrest]

theorem join_append (hws : ws ≠ []) {vs : List Text} (hvs : vs ≠ []) :
    join [' '] (ws ++ vs) = join [' '] ws ++ ' ' :: join [' '] vs := by
  induction ws with
  | nil => exact absurd rfl hws
  | cons w rest ih =>
    rw [List.cons_append, join_cons w (by simp [hvs])]
    by_cases hrest : rest = []
    · rw [hrest, List.nil_append, join_singleton]
    · rw [ih hrest, join_cons w hrest, List.append_assoc, List.cons_append]

theorem mem_join (h : c ∈ join [' '] ws) : c = ' ' ∨ ∃ w ∈ ws, c ∈ w := by
  induction ws with
  | nil => cases h
  | cons w rest ih =>
    by_cases hrest : rest = []
    · rw [hrest, join_singleton] at h
      exact Or.inr ⟨w, by simp, h⟩
    · rw [join_cons w hrest] at h
      rcases List.mem_append.mp h with h | h
      · exact Or.inr ⟨w, by simp, h⟩
      · rcases List.mem_cons.mp h with h | h
        · exact Or.inl h
        · rcases ih h with h | ⟨v, hv, hc⟩
          · exact Or.inl h
          · exact Or.inr ⟨v, List.mem_cons_of_mem w hv, hc⟩

/-- Texts that are joined by a separator keep their fields. -/
theorem fields_join_eq_flatMap (hp : p ' ' = true) (ts : List Text) :
    fields p (join [' '] ts) = ts.flatMap (fields p) := by
  induction ts with
  | nil => rfl
  | cons t rest ih =>
    by_cases hrest : rest = []
    · rw [hrest, join_singleton, List.flatMap_singleton]
    · rw [join_cons t hrest, fields_append_cons hp, ih, List.flatMap_cons]

/-- Fields that are joined by a separator are read back. -/
theorem fields_join (hp : p ' ' = true) (h : ∀ w ∈ ws, IsField p w) :
    fields p (join [' '] ws) = ws := by
  have hone : ∀ w ∈ ws, fields p w = [w] := fun w hw => (h w hw).fields
  rw [fields_join_eq_flatMap hp, List.flatMap_congr hone, List.flatMap_singleton']

/-! ## Collapsed blanks -/

/-- A text without words is blank. -/
theorem words_eq_nil : words t = [] ↔ isBlankText t = true := by
  rw [words_eq_fields, isBlankText, List.all_eq_true]
  constructor
  · intro h
    have hnone : t.filter (!isBlank ·) = [] := by rw [← flatten_fields, h, List.flatten_nil]
    simpa using hnone
  · intro h
    have hwords := append_fields_of_separators h []
    rwa [List.nil_append, fields_nil] at hwords

theorem words_collapse (t : Text) : words (collapse t) = words t :=
  fields_join (by decide) fun _ hw => (mem_fields hw).1

theorem collapse_collapse (t : Text) : collapse (collapse t) = collapse t := by
  rw [collapse, words_collapse, collapse]

/-- Collapsing blanks keeps the fields for separators that include the blanks. -/
theorem fields_collapse (h : ∀ c, isBlank c = true → p c = true) (t : Text) :
    fields p (collapse t) = fields p t := by
  rw [fields_eq_flatMap h, fields_eq_flatMap h t, ← words_eq_fields, words_collapse,
    words_eq_fields]

/-- Two texts that have words may be collapsed apart, if a blank stands between them. -/
theorem collapse_append_cons (hc : isBlank c = true) (hs : words s ≠ []) (ht : words t ≠ []) :
    collapse (s ++ c :: t) = collapse s ++ ' ' :: collapse t := by
  have hwords : words (s ++ c :: t) = words s ++ words t := fields_append_cons hc s t
  rw [collapse, hwords, join_append hs ht]
  rfl

/-- What follows no blank stays where it is. -/
theorem collapse_append (hlast : ∀ c ∈ t.getLast?, isBlank c = false)
    (hs : ∀ c ∈ s, isBlank c = false) : collapse (t ++ s) = collapse t ++ s := by
  by_cases ht : t = []
  · subst ht
    by_cases hne : s = []
    · rw [hne]; rfl
    · have hs' : IsField isBlank s := ⟨hne, hs⟩
      rw [List.nil_append, collapse, words_eq_fields, hs'.fields, join_singleton]
      rfl
  · obtain ⟨before, w, hwords, happend⟩ := exists_fields_append ht hlast hs
    rw [collapse, collapse, words_eq_fields, words_eq_fields, hwords, happend]
    by_cases hbefore : before = []
    · rw [hbefore, List.nil_append, List.nil_append, join_singleton, join_singleton]
    · rw [join_append hbefore (by simp), join_append hbefore (by simp), join_singleton,
        join_singleton, List.append_assoc, List.cons_append]

theorem mem_collapse (h : c ∈ collapse t) : c = ' ' ∨ c ∈ t := by
  rcases mem_join h with h | ⟨w, hw, hc⟩
  · exact Or.inl h
  · exact Or.inr ((mem_fields hw).2 c hc)

/-- The only blanks of the text are spaces, and no two of them follow each other. -/
def SingleSpaced (t : Text) : Prop :=
  (∀ c ∈ t, isBlank c = true → c = ' ') ∧ t.IsChain fun c d => ¬ (c = ' ' ∧ d = ' ')

theorem SingleSpaced.of_isInfix (h : SingleSpaced t) (hs : s <:+: t) : SingleSpaced s :=
  ⟨fun c hc => h.1 c (hs.subset hc), List.IsChain.infix h.2 hs⟩

theorem singleSpaced_of_isField (hw : IsField isBlank w) : SingleSpaced w := by
  refine ⟨fun c hc hblank => ?_, List.Pairwise.isChain (List.pairwise_of_forall_mem_list ?_)⟩
  · rw [hw.2 c hc] at hblank
    cases hblank
  · -- a space is a blank, and a word has none
    rintro c hc d _ ⟨rfl, _⟩
    exact absurd (hw.2 ' ' hc) (by decide)

theorem trimmed_of_isField (hw : IsField p w) : Trimmed p w :=
  ⟨fun c hc => hw.2 c (List.mem_of_mem_head? hc), fun c hc => hw.2 c (List.mem_of_mem_getLast? hc)⟩

/-- A word may be put in front, with one space after it. -/
theorem SingleSpaced.cons_word (h : SingleSpaced t) (ht : Trimmed isBlank t) (hne : t ≠ [])
    (hw : IsField isBlank w) :
    SingleSpaced (w ++ ' ' :: t) ∧ Trimmed isBlank (w ++ ' ' :: t) := by
  obtain ⟨c, rest, rfl⟩ := List.exists_cons_of_ne_nil hne
  have hc : isBlank c = false := ht.1 c rfl
  refine ⟨⟨fun d hd hblank => ?_, ?_⟩, fun d hd => ?_, fun d hd => ?_⟩
  · rcases List.mem_append.mp hd with hd | hd
    · rw [hw.2 d hd] at hblank
      cases hblank
    · rcases List.mem_cons.mp hd with rfl | hd
      · rfl
      · exact h.1 d hd hblank
  · refine List.isChain_append.mpr ⟨(singleSpaced_of_isField hw).2, ?_, ?_⟩
    · refine List.isChain_cons_cons.mpr ⟨?_, h.2⟩
      rintro ⟨_, rfl⟩
      exact absurd hc (by decide)
    · rintro d hd _ _ ⟨rfl, _⟩
      exact absurd (hw.2 ' ' (List.mem_of_mem_getLast? hd)) (by decide)
  · rw [List.head?_append_of_ne_nil _ hw.1] at hd
    exact hw.2 d (List.mem_of_mem_head? hd)
  · refine ht.2 d ?_
    rw [List.getLast?_append_of_ne_nil _ (List.cons_ne_nil _ _)] at hd
    exact hd

/-- Words with one space between neighbours are single spaced, with no blank at
either end. -/
theorem singleSpaced_join (h : ∀ w ∈ ws, IsField isBlank w) :
    SingleSpaced (join [' '] ws) ∧ Trimmed isBlank (join [' '] ws) := by
  induction ws with
  | nil => exact ⟨⟨nofun, List.IsChain.nil⟩, nofun, nofun⟩
  | cons w rest ih =>
    have hw := h w (by simp)
    have hwords := fun v hv => h v (List.mem_cons_of_mem w hv)
    by_cases hrest : rest = []
    · rw [hrest, join_singleton]
      exact ⟨singleSpaced_of_isField hw, trimmed_of_isField hw⟩
    · obtain ⟨hspaced, htrimmed⟩ := ih hwords
      have hne : join [' '] rest ≠ [] := mt (join_eq_nil_iff hwords).mp hrest
      rw [join_cons w hrest]
      exact hspaced.cons_word htrimmed hne hw

/-- In a single spaced text that does not end with a blank, only blanks in front
are too many. -/
theorem SingleSpaced.collapse_eq (h : SingleSpaced t) (hlast : ∀ c ∈ t.getLast?, isBlank c = false) :
    collapse t = dropBlanks t := by
  induction t using fields_induction isBlank with
  | nil => rfl
  | separator c t hc ih =>
    have ht : t ≠ [] := by
      rintro rfl
      exact absurd (hlast c rfl) (by rw [hc]; decide)
    have hcollapse : collapse (c :: t) = collapse t := by
      rw [collapse, words_eq_fields, fields_cons hc, ← words_eq_fields, collapse]
    rw [hcollapse, ih (h.of_isInfix (List.suffix_cons c t).isInfix) ?_, dropBlanks, dropBlanks,
      List.dropWhile_cons_of_pos hc]
    intro d hd
    exact hlast d (by rwa [List.getLast?_cons_of_ne_nil ht])
  | field w t hw ht ih =>
    have hfront : dropBlanks (w ++ t) = w ++ t := by
      obtain ⟨c, rest, rfl⟩ := List.exists_cons_of_ne_nil hw.1
      exact List.dropWhile_cons_of_neg (by simp [hw.2 c (by simp)])
    have hwords : words (w ++ t) = w :: words t := hw.fields_append ht
    rw [hfront, collapse, hwords]
    cases t with
    | nil => rw [List.append_nil]; exact join_singleton w
    | cons c rest =>
      have hspace : c = ' ' := h.1 c (by simp) (ht c rfl)
      have hrest : rest ≠ [] := by
        rintro rfl
        exact absurd (hlast c (by simp)) (by rw [ht c rfl]; decide)
      obtain ⟨d, others, rfl⟩ := List.exists_cons_of_ne_nil hrest
      have hpart : c :: d :: others <:+: w ++ c :: d :: others := (List.suffix_append w _).isInfix
      -- after the space comes no second one, so the next word starts there
      have hd : isBlank d = false := by
        cases hblank : isBlank d with
        | false => rfl
        | true =>
          have hd : d = ' ' := h.1 d (by simp) hblank
          exact absurd ⟨hspace, hd⟩ (List.isChain_cons_cons.mp (h.of_isInfix hpart).2).1
      have hcollapse : collapse (c :: d :: others) = d :: others := by
        rw [ih (h.of_isInfix hpart) ?_, dropBlanks, List.dropWhile_cons_of_pos (ht c rfl),
          List.dropWhile_cons_of_neg (by simp [hd])]
        intro e he
        exact hlast e (by rwa [List.getLast?_append_of_ne_nil _ (List.cons_ne_nil _ _)])
      have hne : words (c :: d :: others) ≠ [] := by
        intro hnil
        rw [collapse, hnil] at hcollapse
        cases hcollapse
      rw [join_cons w hne]
      show w ++ ' ' :: collapse (c :: d :: others) = _
      rw [hcollapse, hspace]

/-- **Collapsing blanks changes nothing** in a text that is single spaced, with no
blank at either end, and in no other text. -/
theorem collapse_eq_self_iff : collapse t = t ↔ SingleSpaced t ∧ Trimmed isBlank t := by
  constructor
  · intro h
    rw [← h]
    exact singleSpaced_join fun _ hw => (mem_fields hw).1
  · rintro ⟨hspaced, hhead, hlast⟩
    rw [hspaced.collapse_eq hlast, dropBlanks]
    cases t with
    | nil => rfl
    | cons c rest => exact List.dropWhile_cons_of_neg (by simp [hhead c rfl])

/-- What is no blank stays at the start. -/
theorem exists_collapse_cons (hc : isBlank c = false) (t : Text) :
    ∃ u, collapse (c :: t) = c :: u := by
  obtain ⟨w, rest, hwords⟩ := exists_fields_cons hc t
  rw [collapse, words_eq_fields, hwords]
  by_cases hrest : rest = []
  · exact ⟨w, by rw [hrest, join_singleton]⟩
  · exact ⟨w ++ ' ' :: join [' '] rest, join_cons (c :: w) hrest⟩

/-- What is no blank may be put in front of a collapsed text. -/
theorem collapse_cons (hc : isBlank c = false) (h : collapse t = t) :
    collapse (c :: t) = c :: t := by
  obtain ⟨⟨hspace, hchain⟩, _, hlast⟩ := collapse_eq_self_iff.mp h
  have hne : c ≠ ' ' := by
    rintro rfl
    exact absurd hc (by decide)
  refine collapse_eq_self_iff.mpr ⟨⟨fun d hd hblank => ?_, ?_⟩, fun d hd => ?_, fun d hd => ?_⟩
  · rcases List.mem_cons.mp hd with rfl | hd
    · rw [hc] at hblank
      cases hblank
    · exact hspace d hd hblank
  · exact List.isChain_cons.mpr ⟨fun _ _ hand => hne hand.1, hchain⟩
  · rwa [← Option.some.inj hd]
  · by_cases ht : t = []
    · subst ht
      rwa [← Option.some.inj hd]
    · exact hlast d (by rwa [List.getLast?_cons_of_ne_nil ht] at hd)

theorem strip_collapse (t : Text) : strip (collapse t) = collapse t :=
  trim_eq_self_iff.mpr (collapse_eq_self_iff.mp (collapse_collapse t)).2

/-- Characters taken from the ends of a collapsed text, spaces among them, leave a
collapsed text. -/
theorem collapse_trim (hp : p ' ' = true) (h : collapse t = t) :
    collapse (trim p t) = trim p t := by
  obtain ⟨hspaced, _⟩ := collapse_eq_self_iff.mp h
  obtain ⟨front, back, ht, _, _⟩ := eq_append_trim_append p t
  have hpart : trim p t <:+: t := ⟨front, back, ht.symm⟩
  have hends : ∀ c ∈ trim p t, p c = false → isBlank c = false := by
    intro c hc hpc
    cases hblank : isBlank c with
    | false => rfl
    | true =>
      rw [hspaced.1 c (hpart.subset hc) hblank, hp] at hpc
      cases hpc
  obtain ⟨hhead, hlast⟩ := trimmed_trim p t
  exact collapse_eq_self_iff.mpr ⟨hspaced.of_isInfix hpart,
    fun c hc => hends c (List.mem_of_mem_head? hc) (hhead c hc),
    fun c hc => hends c (List.mem_of_mem_getLast? hc) (hlast c hc)⟩

/-! ## What a text starts with -/

theorem after?_eq_some_iff : after? w t = some u ↔ w ++ u = t :=
  List.isPrefixOf?_eq_some_iff_append_eq

theorem after?_append_self (w t : Text) : after? w (w ++ t) = some t :=
  after?_eq_some_iff.mpr rfl

/-! ## Blanks in front -/

theorem isBlank_of_mem_space : ∀ c ∈ [' '], isBlank c = true :=
  List.forall_mem_singleton.mpr (by decide)

theorem startsBlank_eq_true_iff :
    startsBlank t = true ↔ ∃ c rest, t = c :: rest ∧ isBlank c = true := by
  cases t with
  | nil => simp [startsBlank]
  | cons c rest => simp [startsBlank]

/-- Any text is made of blanks and, unless it is blank, of what starts with another
character. -/
theorem exists_blanks_append (t : Text) :
    ∃ blanks v, t = blanks ++ v ∧ (∀ c ∈ blanks, isBlank c = true) ∧
      ∀ c ∈ v.head?, isBlank c = false := by
  refine ⟨t.takeWhile isBlank, t.dropWhile isBlank, List.takeWhile_append_dropWhile.symm,
    fun c hc => List.mem_takeWhile_imp hc, fun c hc => ?_⟩
  have hnot := List.head?_dropWhile_not isBlank t
  rw [hc] at hnot
  simpa using hnot

theorem takeWhile_blanks_append (hblanks : ∀ c ∈ blanks, isBlank c = true)
    (ht : ∀ c ∈ t.head?, isBlank c = false) :
    (blanks ++ t).takeWhile isBlank = blanks ∧ dropBlanks (blanks ++ t) = t := by
  have htake : t.takeWhile isBlank = [] := by
    cases t with
    | nil => rfl
    | cons c rest => exact List.takeWhile_cons_of_neg (by simp [ht c rfl])
  have hdrop : t.dropWhile isBlank = t := by
    cases t with
    | nil => rfl
    | cons c rest => exact List.dropWhile_cons_of_neg (by simp [ht c rfl])
  constructor
  · rw [List.takeWhile_append_of_pos hblanks, htake, List.append_nil]
  · rw [dropBlanks, List.dropWhile_append_of_pos hblanks, hdrop]

theorem dropBlanks_space (ht : ∀ c ∈ t.head?, isBlank c = false) : dropBlanks (' ' :: t) = t :=
  (takeWhile_blanks_append isBlank_of_mem_space ht).2

/-- What follows a character that is no blank does not add to the blanks before it. -/
theorem takeWhile_append_of_last (hu : u ≠ []) (hlast : ∀ c ∈ u.getLast?, isBlank c = false)
    (t : Text) : (u ++ t).takeWhile isBlank = u.takeWhile isBlank ∧
      dropBlanks (u ++ t) = dropBlanks u ++ t := by
  have hmem := List.getLast_mem hu
  have hnot : isBlank (u.getLast hu) = false := hlast _ (List.getLast?_eq_some_getLast hu)
  constructor
  · rw [List.takeWhile_append, if_neg]
    intro hlength
    have hall := List.takeWhile_eq_self_iff.mp ((List.takeWhile_prefix isBlank).eq_of_length hlength)
    rw [hall _ hmem] at hnot
    cases hnot
  · rw [dropBlanks, List.dropWhile_append, if_neg]
    · rfl
    · intro hempty
      have hall := List.dropWhile_eq_nil_iff.mp (List.isEmpty_iff.mp hempty)
      rw [hall _ hmem] at hnot
      cases hnot

end SpokenList.Text
