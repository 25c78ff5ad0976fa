import SpokenList.Proofs.Segments

/-! # Segments of segments

A delimiter is read at the first place where one stands, so none is left in a piece
(`not_delimited_of_mem_pieces`).  A segment is therefore a text that is not empty, has no
blank at either end and is not delimited (`IsSegment`), and these are the texts that are
their own only segment (`segments_eq_singleton_iff`).

A comma cuts after any segment, whatever word stands at its end, and the space after the
comma goes with it, so that no joining word at the start of the next segment is between
blanks.  Hence the segments that are listed with a comma between neighbours are read back
(`segments_listing_iff`).
-/
namespace SpokenList.Utterance

open Text (isBlank dropBlanks strip Trimmed)

variable {s t u : Text} {skip : Nat} {ss : List Text}

/-! ## Pieces -/

/-- A delimiter that is read at the start of a text is read there whatever follows. -/
theorem isSome_delimiterLength?_append (h : (delimiterLength? t).isSome = true) (u : Text) :
    (delimiterLength? (t ++ u)).isSome = true := by
  obtain ⟨blanks, rest, hblanks, rfl | ⟨hne, w, hw, c, hc, rfl⟩⟩ := delimiterLength?_isSome.mp h
  · exact delimiterLength?_isSome.mpr ⟨blanks, rest ++ u, hblanks, Or.inl (by simp)⟩
  · exact delimiterLength?_isSome.mpr
      ⟨blanks, rest ++ u, hblanks, Or.inr ⟨hne, w, hw, c, hc, by simp⟩⟩

/-- The first piece stands at the start of the text. -/
theorem prefix_of_pieces_eq_cons (t : Text) {others : List Text} (h : pieces 0 t = s :: others) :
    s <+: t := by
  induction t generalizing s others with
  | nil =>
    obtain ⟨rfl, -⟩ := List.cons.inj h
    exact List.nil_prefix
  | cons c rest ih =>
    cases hlength : delimiterLength? (c :: rest) with
    | some n =>
      rw [pieces_cons_of_some hlength] at h
      obtain ⟨rfl, -⟩ := List.cons.inj h
      exact List.nil_prefix
    | none =>
      obtain ⟨first, later, hpieces⟩ := List.exists_cons_of_ne_nil (pieces_ne_nil 0 rest)
      rw [pieces_cons_of_none hlength, hpieces] at h
      obtain ⟨rfl, -⟩ := List.cons.inj h
      exact List.cons_prefix_cons.mpr ⟨rfl, ih hpieces⟩

/-- **No piece is delimited.**  A delimiter in it would have been read where it stands. -/
theorem not_delimited_of_mem_pieces (h : s ∈ pieces skip t) : ¬ Delimited s := by
  have hnil : ¬ Delimited [] := by
    rw [delimited_iff]
    rintro ⟨u, hu, hsome⟩
    rw [List.suffix_nil.mp hu] at hsome
    cases hsome
  fun_induction pieces skip t generalizing s with
  | case1 => rwa [List.mem_singleton.mp h]
  | case2 skip c rest ih => exact ih h
  | case3 c rest n _ ih =>
    rcases List.mem_cons.mp h with rfl | h
    · exact hnil
    · exact ih h
  | case4 c rest hnone ih =>
    obtain ⟨first, others, hpieces⟩ := List.exists_cons_of_ne_nil (pieces_ne_nil 0 rest)
    rw [hpieces] at h ih
    rcases List.mem_cons.mp h with rfl | h
    · rw [delimited_iff]
      rintro ⟨u, hu, hsome⟩
      rcases List.suffix_cons_iff.mp hu with rfl | hu
      · -- with what follows the piece, the same delimiter stands at the start of the text
        obtain ⟨after, hrest⟩ := prefix_of_pieces_eq_cons rest hpieces
        have hread := isSome_delimiterLength?_append hsome after
        rw [List.cons_append, hrest, hnone] at hread
        cases hread
      · exact ih (List.mem_cons_self ..) (delimited_iff.mpr ⟨u, hu, hsome⟩)
    · exact ih (List.mem_cons_of_mem first h)

/-! ## Segments -/

/-- A text that is said between delimiters. -/
structure IsSegment (s : Text) : Prop where
  ne_nil : s ≠ []
  trimmed : Trimmed isBlank s
  not_delimited : ¬ Delimited s

theorem IsSegment.noComma (h : IsSegment s) : ',' ∉ s := fun hcomma =>
  h.not_delimited (Or.inl hcomma)

theorem IsSegment.strip_eq (h : IsSegment s) : strip s = s := Text.trim_eq_self_iff.mpr h.trimmed

theorem isSegment_of_mem_segments (h : s ∈ segments t) : IsSegment s := by
  obtain ⟨hs, hne⟩ := List.mem_filter.mp h
  obtain ⟨piece, hpiece, rfl⟩ := List.mem_map.mp hs
  obtain ⟨front, back, hsplit, -, -⟩ := Text.eq_append_trim_append isBlank piece
  exact
    { ne_nil := by simpa using hne
      trimmed := Text.trimmed_trim isBlank piece
      not_delimited := fun hdelimited => not_delimited_of_mem_pieces hpiece
        (hdelimited.of_isInfix ⟨front, back, hsplit.symm⟩) }

/-- **A segment is its own only segment**, and no other text is. -/
theorem segments_eq_singleton_iff : segments s = [s] ↔ IsSegment s := by
  constructor
  · intro h
    exact isSegment_of_mem_segments (t := s) (by rw [h]; exact List.mem_singleton_self s)
  · intro h
    rw [segments, pieces_of_not_delimited h.not_delimited, List.map_singleton, h.strip_eq,
      List.filter_cons_of_pos (by simpa using h.ne_nil), List.filter_nil]

/-! ## Listing segments -/

theorem listing_cons (s : Text) (hss : ss ≠ []) :
    Text.join ", " (s :: ss) = s ++ ',' :: ' ' :: Text.join ", " ss := by
  obtain ⟨first, others, rfl⟩ := List.exists_cons_of_ne_nil hss
  rw [Text.join, List.intercalate_cons_cons, List.append_assoc]
  rfl

/-- No blank stands at the start of a list of segments. -/
theorem head?_listing (h : ∀ s ∈ ss, IsSegment s) :
    ∀ c ∈ (Text.join ", " ss).head?, isBlank c = false := by
  cases ss with
  | nil => exact nofun
  | cons s rest =>
    have hs := h s (List.mem_cons_self ..)
    by_cases hrest : rest = []
    · rw [hrest, Text.join, List.intercalate_singleton]
      exact hs.trimmed.1
    · rw [listing_cons s hrest, List.head?_append_of_ne_nil _ hs.ne_nil]
      exact hs.trimmed.1

/-- **A list of segments is read back**, and a list that is read back has only segments. -/
theorem segments_listing_iff : segments (Text.join ", " ss) = ss ↔ ∀ s ∈ ss, IsSegment s := by
  constructor
  · intro h s hs
    exact isSegment_of_mem_segments (by rwa [h])
  · intro h
    induction ss with
    | nil => rfl
    | cons s rest ih =>
      obtain ⟨hs, hothers⟩ := List.forall_mem_cons.mp h
      have halone := segments_eq_singleton_iff.mpr hs
      by_cases hrest : rest = []
      · rw [hrest, Text.join, List.intercalate_singleton, halone]
      · rw [listing_cons s hrest, segments_append_comma hs.trimmed.2, halone,
          Text.dropBlanks_space (head?_listing hothers), ih hothers, List.singleton_append]

/-- A joining word that is left over stays in its segment, at the start as at the end. -/
example : let ss : List Text := ["a", "and b", "plus", "x and"]
    segments "a and and b , plus, x and" = ss ∧ segments (Text.join ", " ss) = ss := by
  decide +kernel

/-- **Segments are final.**  A segment is not empty, has no blank at either end and no comma,
and is its own only segment; and the segments of any text, with a comma and a space between
neighbours, have themselves for segments again. -/
theorem segments_canonical (t : Text) :
    (∀ s ∈ segments t, s ≠ [] ∧ strip s = s ∧ ',' ∉ s ∧ segments s = [s]) ∧
      segments (Text.join ", " (segments t)) = segments t := by
  have hsegments : ∀ s ∈ segments t, IsSegment s := fun _ => isSegment_of_mem_segments
  refine ⟨fun s hs => ?_, segments_listing_iff.mpr hsegments⟩
  have hsegment := hsegments s hs
  exact ⟨hsegment.ne_nil, hsegment.strip_eq, hsegment.noComma,
    segments_eq_singleton_iff.mpr hsegment⟩

end SpokenList.Utterance
