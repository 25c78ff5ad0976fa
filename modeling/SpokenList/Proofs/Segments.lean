import SpokenList.Proofs.Delimiters

/-! # Segments of an enumeration

A comma always delimits, so no segment has one; and all that a segment says was
said in the enumeration (`mem_segments`).

An enumeration may be cut at a delimiter, and what stands before it and after it
enumerated apart (`segments_append`).  At a comma this holds of any two texts, if no
blank stands before it (`segments_append_comma`); at a joining word the text before
it must end neither with a comma nor with another joining word
(`segments_append_joiner`).
-/
namespace SpokenList.Utterance

open Text (isBlank dropBlanks)

variable {b c : Char} {r s t w : Text} {skip n : Nat}

theorem mem_pieces (hs : s ∈ pieces skip t) (hc : c ∈ s) : c ∈ t ∧ c ≠ ',' := by
  fun_induction pieces skip t generalizing s with
  | case1 skip =>
    rw [List.mem_singleton.mp hs] at hc
    cases hc
  | case2 skip d rest ih =>
    exact ⟨List.mem_cons_of_mem d (ih hs hc).1, (ih hs hc).2⟩
  | case3 d rest n _ ih =>
    rcases List.mem_cons.mp hs with rfl | hs
    · cases hc
    · exact ⟨List.mem_cons_of_mem d (ih hs hc).1, (ih hs hc).2⟩
  | case4 d rest hnone ih =>
    -- a comma would have been read as a delimiter
    have hd : d ≠ ',' := by
      rintro rfl
      exact absurd hnone (Option.isSome_iff_ne_none.mp (delimiterLength?_comma rest))
    cases hpieces : pieces 0 rest with
    | nil =>
      rw [hpieces] at hs
      cases hs
    | cons first others =>
      rw [hpieces] at hs ih
      rcases List.mem_cons.mp hs with rfl | hs
      · rcases List.mem_cons.mp hc with rfl | hc
        · exact ⟨by simp, hd⟩
        · have hfirst := ih (List.mem_cons_self ..) hc
          exact ⟨List.mem_cons_of_mem d hfirst.1, hfirst.2⟩
      · have hother := ih (List.mem_cons_of_mem first hs) hc
        exact ⟨List.mem_cons_of_mem d hother.1, hother.2⟩

/-- A segment says something, says no comma, and says nothing that was not said. -/
theorem mem_segments (hs : s ∈ segments t) : s ≠ [] ∧ ∀ c ∈ s, c ∈ t ∧ c ≠ ',' := by
  obtain ⟨hs, hne⟩ := List.mem_filter.mp hs
  obtain ⟨piece, hpiece, rfl⟩ := List.mem_map.mp hs
  exact ⟨by simpa using hne, fun c hc => mem_pieces hpiece (Text.mem_of_mem_trim hc)⟩

/-! ## Pieces -/

theorem pieces_cons_of_some (h : delimiterLength? (c :: t) = some n) :
    pieces 0 (c :: t) = [] :: pieces (n - 1) t := by
  rw [pieces, h]

theorem pieces_cons_of_none (h : delimiterLength? (c :: t) = none) :
    pieces 0 (c :: t) = (pieces 0 t).modifyHead (c :: ·) := by
  rw [pieces, h]

theorem pieces_of_not_delimited (h : ¬ Delimited t) : pieces 0 t = [t] := by
  rw [delimited_iff] at h
  induction t with
  | nil => rfl
  | cons c rest ih =>
    have hnone : delimiterLength? (c :: rest) = none := by
      rw [← Option.not_isSome_iff_eq_none]
      exact fun hsome => h ⟨_, List.suffix_rfl, hsome⟩
    have hrest := ih fun ⟨u, hu, hsome⟩ => h ⟨u, hu.trans (List.suffix_cons c rest), hsome⟩
    rw [pieces_cons_of_none hnone, hrest, List.modifyHead_cons]

/-- The first piece of a text that is delimited ends where the first delimiter starts. -/
theorem pieces_of_delimited (h : Delimited t) :
    ∃ s u others, t = s ++ u ∧ (delimiterLength? u).isSome = true ∧ pieces 0 t = s :: others := by
  rw [delimited_iff] at h
  induction t with
  | nil =>
    obtain ⟨u, hu, hsome⟩ := h
    rw [List.suffix_nil.mp hu] at hsome
    cases hsome
  | cons c rest ih =>
    cases hlength : delimiterLength? (c :: rest) with
    | some n =>
      exact ⟨[], c :: rest, pieces (n - 1) rest, rfl, by rw [hlength]; rfl,
        pieces_cons_of_some hlength⟩
    | none =>
      obtain ⟨u, hu, hsome⟩ := h
      have hrest : u <:+ rest := by
        rcases List.suffix_cons_iff.mp hu with rfl | hu
        · rw [hlength] at hsome
          cases hsome
        · exact hu
      obtain ⟨s, v, others, hsplit, hv, hpieces⟩ := ih ⟨u, hrest, hsome⟩
      refine ⟨c :: s, v, others, by rw [hsplit, List.cons_append], hv, ?_⟩
      rw [pieces_cons_of_none hlength, hpieces, List.modifyHead_cons]

theorem pieces_ne_nil (skip : Nat) (t : Text) : pieces skip t ≠ [] := by
  fun_induction pieces skip t with
  | case1 => exact List.cons_ne_nil _ _
  | case2 skip c rest ih => exact ih
  | case3 c rest n h ih => exact List.cons_ne_nil _ _
  | case4 c rest h ih => simpa using ih

theorem pieces_skip (s t : Text) : pieces s.length (s ++ t) = pieces 0 t := by
  induction s with
  | nil => rfl
  | cons c rest ih => exact ih

/-- **A text may be cut at a delimiter** that no delimiter before it reaches. -/
theorem pieces_append
    (hs : ∀ u, u <:+ s → u ≠ [] → delimiterLength? (u ++ (r ++ t)) = delimiterLength? u)
    (hr : r ≠ []) (hdelimiter : delimiterLength? (r ++ t) = some r.length)
    (hskip : skip ≤ s.length) :
    pieces skip (s ++ (r ++ t)) = pieces skip s ++ pieces 0 t := by
  induction s generalizing skip with
  | nil =>
    obtain rfl := Nat.le_zero.mp hskip
    obtain ⟨c, rest, rfl⟩ := List.exists_cons_of_ne_nil hr
    rw [List.cons_append] at hdelimiter
    rw [List.nil_append, List.cons_append, pieces_cons_of_some hdelimiter, List.length_cons,
      Nat.add_sub_cancel, pieces_skip]
    rfl
  | cons c s ih =>
    have ih' {k : Nat} (hk : k ≤ s.length) : pieces k (s ++ (r ++ t)) = pieces k s ++ pieces 0 t :=
      ih (fun u hu => hs u (hu.trans (List.suffix_cons c s))) hk
    cases skip with
    | succ skip =>
      rw [List.cons_append, pieces, pieces]
      exact ih' (by simpa using hskip)
    | zero =>
      have hsame := hs (c :: s) List.suffix_rfl (List.cons_ne_nil c s)
      rw [List.cons_append] at hsame ⊢
      cases hlength : delimiterLength? (c :: s) with
      | some n =>
        have hle := delimiterLength?_le hlength
        rw [List.length_cons] at hle
        rw [pieces_cons_of_some (hsame.trans hlength), pieces_cons_of_some hlength, ih' (by omega),
          List.cons_append]
      | none =>
        rw [pieces_cons_of_none (hsame.trans hlength), pieces_cons_of_none hlength,
          ih' (Nat.zero_le _)]
        obtain ⟨first, others, hpieces⟩ := List.exists_cons_of_ne_nil (pieces_ne_nil 0 s)
        rw [hpieces]
        rfl

/-! ## Segments -/

/-- **An enumeration may be cut at a delimiter** that starts with `b`: if that is a
blank, nothing before it may reach it. -/
theorem segments_append (hlast : ∀ c ∈ s.getLast?, isBlank c = false)
    (hb : ∀ w ∈ joiningWords, b ∉ w) (hends : isBlank b = true → EndsApart s)
    (hdelimiter : delimiterLength? (b :: (r ++ t)) = some (b :: r).length) :
    segments (s ++ b :: (r ++ t)) = segments s ++ segments t := by
  have hpieces : pieces 0 (s ++ (b :: r ++ t)) = pieces 0 s ++ pieces 0 t := by
    refine pieces_append (fun u hu hne => ?_) (List.cons_ne_nil b r) hdelimiter (Nat.zero_le _)
    refine delimiterLength?_append hne ?_ hb (fun hblank => (hends hblank).of_suffix hu hne) _
    obtain ⟨front, rfl⟩ := hu
    rwa [List.getLast?_append_of_ne_nil _ hne] at hlast
  rw [← List.cons_append, segments, hpieces, List.map_append, List.filter_append]
  rfl

/-- A comma cuts where no blank stands before it, whatever does. -/
theorem segments_append_comma (hlast : ∀ c ∈ s.getLast?, isBlank c = false) (t : Text) :
    segments (s ++ ',' :: t) = segments s ++ segments (dropBlanks t) := by
  have hsplit : t.takeWhile isBlank ++ dropBlanks t = t := List.takeWhile_append_dropWhile
  have hcomma : isBlank ',' = false := by decide
  have hnone : ∀ c ∈ ([] : Text), isBlank c = true := nofun
  have hread := delimiterLength?_blanks_comma hnone t
  have hcut : segments (s ++ ',' :: (t.takeWhile isBlank ++ dropBlanks t)) =
      segments s ++ segments (dropBlanks t) := by
    refine segments_append hlast (by decide) (fun h => absurd h (by simp [hcomma])) ?_
    rw [hsplit, List.length_cons]
    refine hread.trans ?_
    simp only [List.length_nil]
    congr 1
    omega
  rwa [hsplit] at hcut

/-- A joining word between blanks cuts where nothing before it reaches it. -/
theorem segments_append_joiner (hw : w ∈ joiningWords)
    (hlast : ∀ c ∈ s.getLast?, isBlank c = false) (hends : EndsApart s)
    (ht : ∀ c ∈ t.head?, isBlank c = false) :
    segments (s ++ ' ' :: (w ++ ' ' :: t)) = segments s ++ segments t := by
  have hsplit : w ++ ' ' :: t = (w ++ [' ']) ++ t := by simp
  have htake : (' ' :: t).takeWhile isBlank = [' '] :=
    (Text.takeWhile_blanks_append Text.isBlank_of_mem_space ht).1
  have hread := delimiterLength?_word Text.isBlank_of_mem_space (head?_joiner hw (' ' :: t))
  rw [if_neg (by simp), joinerLength?_append_of_mem hw rfl, htake] at hread
  rw [hsplit]
  refine segments_append hlast (by decide) (fun _ => hends) ?_
  rw [← hsplit]
  refine hread.trans ?_
  simp only [Option.map_some, List.length_cons, List.length_append, List.length_nil]
  congr 1
  omega

end SpokenList.Utterance
