import SpokenList.Proofs.Quantities
import SpokenList.Proofs.Words
import SpokenList.Utterance.Group

/-! # What a group says

A quantity that a token says is from one to the limit, or to ten if it is a
number word (`sayable_of_quantity?`).  A group says nothing that its segment does not
say: its words are words of the segment, and its quantity is one that a token
stands for (`mem_groups`).  The same holds of the note that is taken out of its
words and of what is left (`mem_text_takeNote`, `mem_note_takeNote`).
-/
namespace SpokenList.Utterance

variable {limits : Limits} {token t : Text} {n : Int} {c : Char}

/-! ## Quantities -/

/-- The number is at least one, and no more than the limit or ten. -/
def Sayable (limits : Limits) (n : Int) : Prop := 1 ≤ n ∧ (n ≤ limits.quantity ∨ n ≤ 10)

theorem sayable_one (limits : Limits) : Sayable limits 1 := ⟨Int.le_refl 1, Or.inr (by decide)⟩

theorem sayable_of_quantity? (h : quantity? limits token = some n) : Sayable limits n := by
  rcases quantity?_eq_some_iff.mp h with ⟨-, hone, hle⟩ | hword
  · exact ⟨hone, Or.inl hle⟩
  · exact ⟨hword.bounds.1, Or.inr hword.bounds.2⟩

/-! ## Notes -/

/-- What stands in the parentheses and after them was in the text. -/
theorem mem_of_dropWhile_eq {p : Char → Bool} {d : Char} {inside : Text}
    (h : t.dropWhile p = d :: inside) (hc : c ∈ inside) : c ∈ t := by
  refine (List.dropWhile_sublist p).subset ?_
  rw [h]
  exact List.mem_cons_of_mem d hc

theorem mem_text_takeNote (h : c ∈ (takeNote t).text) : c = ' ' ∨ c ∈ t := by
  unfold takeNote at h
  split at h
  · exact Or.inr (Text.mem_of_mem_trim h)
  · rename_i hinside
    rcases List.mem_append.mp (Text.mem_of_mem_trim h) with h | h
    · exact Or.inr ((List.takeWhile_sublist _).subset h)
    · rcases List.mem_cons.mp h with h | h
      · exact Or.inl h
      · have hafter := (List.dropWhile_sublist _).subset (List.mem_of_mem_drop h)
        exact Or.inr (mem_of_dropWhile_eq hinside hafter)

/-- A note says something, and nothing that was not said. -/
theorem mem_note_takeNote {note : Text} (hnote : note ∈ (takeNote t).note) :
    note ≠ [] ∧ ∀ c ∈ note, c ∈ t := by
  unfold takeNote at hnote
  split at hnote
  · cases hnote
  · rename_i hinside
    obtain ⟨hne, rfl⟩ : ¬ _ ∧ _ = note := by simpa [nonEmpty?] using hnote
    refine ⟨by simpa using hne, fun c hc => mem_of_dropWhile_eq hinside ?_⟩
    exact (List.takeWhile_sublist _).subset (Text.mem_of_mem_trim hc)

/-! ## Groups -/

/-- All that the group says was collected already or is said by the tokens. -/
def Group.SaidBy (limits : Limits) (r : Reading) (tokens : List Text) (g : Group) : Prop :=
  (∀ n ∈ g.quantity, n ∈ r.quantity ∨ ∃ token ∈ tokens, quantity? limits token = some n) ∧
    ∀ w ∈ g.words, w ∈ r.words ∨ w ∈ tokens

variable {r r' : Reading} {tokens : List Text} {g : Group}

theorem Group.saidBy_of_mem_group (hg : g ∈ r.group) : g.SaidBy limits r tokens := by
  unfold Reading.group at hg
  split at hg
  · cases hg
  · obtain rfl := List.mem_singleton.mp hg
    exact ⟨fun _ hn => Or.inl hn, fun _ hw => Or.inl hw⟩

/-- One token may be read first, if it is all that the reading gains by it. -/
theorem Group.SaidBy.cons (h : g.SaidBy limits r' tokens)
    (hquantity : ∀ n ∈ r'.quantity, n ∈ r.quantity ∨ quantity? limits token = some n)
    (hwords : ∀ w ∈ r'.words, w ∈ r.words ∨ w = token) : g.SaidBy limits r (token :: tokens) := by
  refine ⟨fun n hn => ?_, fun w hw => ?_⟩
  · rcases h.1 n hn with hn | ⟨later, hlater, hn⟩
    · rcases hquantity n hn with hn | hn
      · exact Or.inl hn
      · exact Or.inr ⟨token, List.mem_cons_self .., hn⟩
    · exact Or.inr ⟨later, List.mem_cons_of_mem token hlater, hn⟩
  · rcases h.2 w hw with hw | hw
    · rcases hwords w hw with hw | rfl
      · exact Or.inl hw
      · exact Or.inr (List.mem_cons_self ..)
    · exact Or.inr (List.mem_cons_of_mem token hw)

theorem Reading.mem_words_keep {w : Text} (hw : w ∈ (r.keep token).words) :
    w ∈ r.words ∨ w = token := by
  simpa [Reading.keep] using hw

theorem saidBy_of_mem_groupsFrom (hg : g ∈ groupsFrom limits r tokens) :
    g.SaidBy limits r tokens := by
  fun_induction groupsFrom limits r tokens with
  | case1 r => exact Group.saidBy_of_mem_group hg
  | case2 r token rest _ ih =>
    exact (ih hg).cons (fun _ => Or.inl) fun _ => Reading.mem_words_keep
  | case3 r token rest _ n hn ih =>
    -- a quantity closes the group before it, and opens one that has no words yet
    rcases List.mem_append.mp hg with hg | hg
    · exact Group.saidBy_of_mem_group hg
    · refine (ih hg).cons (fun m hm => ?_) (fun _ hw => by cases hw)
      obtain rfl := Option.some.inj hm
      exact Or.inr hn
  | case4 r token rest _ _ _ ih => exact (ih hg).cons (fun _ => Or.inl) fun _ => Or.inl
  | case5 r token rest _ _ _ ih =>
    exact (ih hg).cons (fun _ => Or.inl) fun _ => Reading.mem_words_keep

/-- **A group says nothing but what its segment says.** -/
theorem mem_groups {segment : Text} (hg : g ∈ groups limits segment) :
    (∀ n ∈ g.quantity, ∃ token ∈ Text.words segment, quantity? limits token = some n) ∧
      ∀ w ∈ g.words, w ∈ Text.words segment := by
  obtain ⟨hquantity, hwords⟩ := saidBy_of_mem_groupsFrom hg
  refine ⟨fun n hn => ?_, fun w hw => ?_⟩
  · rcases hquantity n hn with hn | hn
    · cases hn
    · exact hn
  · rcases hwords w hw with hw | hw
    · cases hw
    · exact hw

theorem mem_groupText {segment : Text} (hg : g ∈ groups limits segment) (hc : c ∈ g.text) :
    c = ' ' ∨ c ∈ segment := by
  rcases Text.mem_join hc with hc | ⟨w, hw, hc⟩
  · exact Or.inl hc
  · exact Or.inr ((Text.mem_fields ((mem_groups hg).2 w hw)).2 c hc)

end SpokenList.Utterance
