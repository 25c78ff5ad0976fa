import Mathlib.Data.List.TakeWhile
import SpokenList.Plan.Summary
import SpokenList.Proofs.Numerals

/-! # What a summary says

A plan is confirmed on the word of its summary, so the summary has to say all that is
asked (`Plan.summary_eq_iff`).  It is read in three steps.  Its lines are what stands
between line feeds, if no name and no note has one.  The lines of a kind follow its
heading, up to the next line that starts no entry (`linesUnder_sectionLines`); a heading
starts none, and a line of an entry is no heading, whatever the entry names.  And what
stands in a line is found one after the other: a numeral has no space in it, and the name
of an item to add no parenthesis, while everything after that belongs to the note
(`AddEntry.line_inj`).
-/
namespace SpokenList

/-- A character that stands for the first time cuts a text in one way. -/
theorem Text.append_cons_inj {c : Char} {s s' t t' : Text} (hs : c ∉ s) (hs' : c ∉ s')
    (h : s ++ c :: t = s' ++ c :: t') : s = s' ∧ t = t' := by
  have hsplit := congrArg (List.splitOn c) h
  rw [List.splitOn_append_cons_self_of_not_mem hs,
    List.splitOn_append_cons_self_of_not_mem hs'] at hsplit
  obtain rfl := (List.cons.inj hsplit).1
  exact ⟨rfl, (List.cons.inj (List.append_cancel_left h)).2⟩

/-- Lists have the same images only if they are the same, where no image stands for two. -/
theorem eq_of_map_eq {α β : Type} {f : α → β} {xs ys : List α}
    (hf : ∀ x ∈ xs, ∀ y ∈ ys, f x = f y → x = y) (h : xs.map f = ys.map f) : xs = ys := by
  induction xs generalizing ys with
  | nil => exact (List.map_eq_nil_iff.mp h.symm).symm
  | cons x rest ih =>
    obtain ⟨y, others, rfl, hy, hothers⟩ := List.map_eq_cons_iff.mp h.symm
    have hrest := ih (fun a ha b hb => hf a (List.mem_cons_of_mem x ha) b
      (List.mem_cons_of_mem y hb)) hothers.symm
    rw [hf x (List.mem_cons_self ..) y (List.mem_cons_self ..) hy.symm, hrest]

/-! ## Lines -/

/-- An entry whose name and note can be told apart in a line. -/
structure AddEntry.Legible (e : AddEntry) : Prop where
  name : '\n' ∉ e.name ∧ '(' ∉ e.name
  note : ∀ note ∈ e.note, note ≠ [] ∧ '\n' ∉ note

instance (e : AddEntry) : Decidable e.Legible :=
  decidable_of_iff (('\n' ∉ e.name ∧ '(' ∉ e.name) ∧ ∀ note ∈ e.note, note ≠ [] ∧ '\n' ∉ note)
    ⟨fun ⟨hname, hnote⟩ => ⟨hname, hnote⟩, fun h => ⟨h.name, h.note⟩⟩

/-- The note as it stands behind the name. -/
def AddEntry.noted (e : AddEntry) : Text :=
  match e.note with
  | none => []
  | some note => ' ' :: '(' :: (note ++ [')'])

namespace AddEntry

variable {e e' : AddEntry}

theorem line_eq (he : e.Legible) : e.line =
    '-' :: ' ' :: (Text.ofInt e.quantity ++ ' ' :: multiplySign :: ' ' :: (e.name ++ e.noted)) := by
  obtain ⟨name, quantity, note⟩ := e
  cases note with
  | none => simp [line, noted]
  | some note =>
    cases note with
    | nil => exact absurd rfl (he.note [] rfl).1
    | cons c note => simp [line, noted]

theorem name_append_noted_inj (he : e.Legible) (he' : e'.Legible)
    (h : e.name ++ e.noted = e'.name ++ e'.noted) : e.name = e'.name ∧ e.note = e'.note := by
  obtain ⟨name, quantity, note⟩ := e
  obtain ⟨name', quantity', note'⟩ := e'
  have hname : '(' ∉ name := he.name.2
  have hname' : '(' ∉ name' := he'.name.2
  cases note <;> cases note' <;> simp only [noted, List.append_nil] at h
  case none.none => exact ⟨h, rfl⟩
  case none.some => exact absurd (by simp [h]) hname
  case some.none => exact absurd (by simp [← h]) hname'
  case some.some note note' =>
    have hcut : (name ++ [' ']) ++ '(' :: (note ++ [')']) =
        (name' ++ [' ']) ++ '(' :: (note' ++ [')']) := by simpa using h
    obtain ⟨hleft, hright⟩ :=
      Text.append_cons_inj (by simp [hname]) (by simp [hname']) hcut
    exact ⟨List.append_cancel_right hleft, congrArg some (List.append_cancel_right hright)⟩

/-- **A line to add says how many of what, and the note.** -/
theorem line_inj (he : e.Legible) (he' : e'.Legible) (h : e.line = e'.line) : e = e' := by
  have hspace {n : Int} : ' ' ∉ Text.ofInt n := Text.notMem_ofInt (by decide)
  rw [line_eq he, line_eq he'] at h
  obtain ⟨hquantity, hrest⟩ :=
    Text.append_cons_inj hspace hspace (List.cons.inj (List.cons.inj h).2).2
  obtain ⟨hname, hnote⟩ :=
    name_append_noted_inj he he' (List.cons.inj (List.cons.inj hrest).2).2
  obtain ⟨name, quantity, note⟩ := e
  obtain ⟨name', quantity', note'⟩ := e'
  obtain rfl : name = name' := hname
  obtain rfl : note = note' := hnote
  obtain rfl : quantity = quantity' := Text.ofInt_inj hquantity
  rfl

theorem notMem_line (he : e.Legible) : '\n' ∉ e.line := by
  have hnumeral : '\n' ∉ Text.ofInt e.quantity := Text.notMem_ofInt (by decide)
  have hnoted : '\n' ∉ e.noted := by
    unfold noted
    split
    · nofun
    · next note hnote => simp [(he.note note hnote).2]
  have hsign : '\n' ≠ multiplySign := by decide
  rw [line_eq he]
  simp [hnumeral, hsign, he.name.1, hnoted]

end AddEntry

theorem RemoveEntry.line_inj {e e' : RemoveEntry} (h : e.line = e'.line) : e = e' :=
  congrArg RemoveEntry.mk (List.append_cancel_left h)

/-- **A line to adjust says by how much, up or down, and what.** -/
theorem AdjustEntry.line_inj {e e' : AdjustEntry} (h : e.line = e'.line) : e = e' := by
  have hspace {n : Int} : ' ' ∉ Text.ofSigned n := Text.notMem_ofSigned (by decide)
  obtain ⟨name, delta⟩ := e
  obtain ⟨name', delta'⟩ := e'
  simp only [line, List.append_assoc, List.cons_append, List.nil_append] at h
  obtain ⟨hdelta, rfl⟩ :=
    Text.append_cons_inj hspace hspace (List.cons.inj (List.cons.inj h).2).2
  rw [Text.ofSigned_inj hdelta]

/-! ## Lines under headings -/

/-- Whether the line is one of an entry. -/
def isEntryLine (line : Text) : Bool := line.head? == some '-'

/-- The lines of entries that follow a heading. -/
def linesUnder (heading : Text) (lines : List Text) : List Text :=
  ((lines.dropWhile (· != heading)).drop 1).takeWhile isEntryLine

/-- Headings with their lines, one after the other. -/
def sectionLines (parts : List (Text × List Text)) : List Text :=
  parts.flatMap fun s => headed s.1 s.2

/-- The headings are different and start no entry, and below them stand entries only. -/
structure Sections (parts : List (Text × List Text)) : Prop where
  nodup : (parts.map Prod.fst).Nodup
  heading : ∀ s ∈ parts, isEntryLine s.1 = false
  lines : ∀ s ∈ parts, ∀ line ∈ s.2, isEntryLine line = true

variable {parts : List (Text × List Text)} {heading : Text} {lines others : List Text}

theorem headed_of_ne_nil (h : lines ≠ []) : headed heading lines = heading :: lines := by
  cases lines with
  | nil => exact absurd rfl h
  | cons line rest => rfl

theorem headed_eq_nil (h : headed heading lines = []) : lines = [] := by
  cases lines with
  | nil => rfl
  | cons line rest => cases h

theorem mem_headed {line : Text} (h : line ∈ headed heading lines) :
    line = heading ∨ line ∈ lines := by
  cases lines with
  | nil => cases h
  | cons first rest => exact List.mem_cons.mp h

theorem Sections.tail {s : Text × List Text} (h : Sections (s :: parts)) : Sections parts :=
  ⟨(List.nodup_cons.mp h.nodup).2, (List.forall_mem_cons.mp h.heading).2,
    (List.forall_mem_cons.mp h.lines).2⟩

/-- What starts no entry stands among the lines as a heading only. -/
theorem Sections.notMem_sectionLines (h : Sections parts)
    (hheading : heading ∉ parts.map Prod.fst) (hentry : isEntryLine heading = false) :
    heading ∉ sectionLines parts := by
  intro hmem
  obtain ⟨s, hs, hline⟩ := List.mem_flatMap.mp hmem
  rcases mem_headed hline with rfl | hline
  · exact hheading (List.mem_map_of_mem hs)
  · rw [h.lines s hs heading hline] at hentry
    cases hentry

theorem Sections.head?_sectionLines (h : Sections parts) :
    ∀ line ∈ (sectionLines parts).head?, isEntryLine line = false := by
  induction parts with
  | nil => nofun
  | cons s rest ih =>
    rw [sectionLines, List.flatMap_cons]
    by_cases hnil : s.2 = []
    · rw [hnil]
      exact ih h.tail
    · rw [headed_of_ne_nil hnil]
      exact fun line hline => Option.some.inj hline ▸ h.heading s (List.mem_cons_self ..)

theorem linesUnder_eq_nil (h : heading ∉ lines) : linesUnder heading lines = [] := by
  have hdrop : lines.dropWhile (· != heading) = [] :=
    List.dropWhile_eq_nil_iff.mpr fun line hline => bne_iff_ne.mpr fun heq => h (heq ▸ hline)
  rw [linesUnder, hdrop]
  rfl

/-- Lines before the heading make no difference. -/
theorem linesUnder_append (h : heading ∉ lines) (others : List Text) :
    linesUnder heading (lines ++ others) = linesUnder heading others := by
  have hall : ∀ line ∈ lines, (line != heading) = true := fun line hline =>
    bne_iff_ne.mpr fun heq => h (heq ▸ hline)
  rw [linesUnder, linesUnder, List.dropWhile_append_of_pos hall]

/-- The lines of entries end at the first other line. -/
theorem linesUnder_headed (hlines : ∀ line ∈ lines, isEntryLine line = true)
    (hothers : ∀ line ∈ others.head?, isEntryLine line = false) (hnone : heading ∉ others) :
    linesUnder heading (headed heading lines ++ others) = lines := by
  have hend : others.takeWhile isEntryLine = [] := by
    cases others with
    | nil => rfl
    | cons line rest => exact List.takeWhile_cons_of_neg (by simp [hothers line rfl])
  by_cases hnil : lines = []
  · rw [hnil]
    exact linesUnder_eq_nil hnone
  · have hstart : (headed heading lines ++ others).dropWhile (· != heading) =
        heading :: (lines ++ others) := by
      rw [headed_of_ne_nil hnil]
      exact List.dropWhile_cons_of_neg (by simp)
    rw [linesUnder, hstart, List.drop_one, List.tail_cons, List.takeWhile_append_of_pos hlines,
      hend, List.append_nil]

/-- **Under each heading its own lines stand.** -/
theorem linesUnder_sectionLines (h : Sections parts) :
    ∀ s ∈ parts, linesUnder s.1 (sectionLines parts) = s.2 := by
  induction parts with
  | nil => nofun
  | cons first rest ih =>
    obtain ⟨hfirst, -⟩ := List.nodup_cons.mp h.nodup
    have hheading := h.heading first (List.mem_cons_self ..)
    intro s hs
    rw [sectionLines, List.flatMap_cons]
    rcases List.mem_cons.mp hs with rfl | hs
    · exact linesUnder_headed (h.lines s (List.mem_cons_self ..)) h.tail.head?_sectionLines
        (h.tail.notMem_sectionLines hfirst hheading)
    · have hne : s.1 ∉ headed first.1 first.2 := by
        intro hmem
        rcases mem_headed hmem with heq | hline
        · exact hfirst (heq ▸ List.mem_map_of_mem hs)
        · have hentry := h.lines first (List.mem_cons_self ..) s.1 hline
          rw [h.heading s (List.mem_cons_of_mem first hs)] at hentry
          cases hentry
      rw [linesUnder_append hne]
      exact ih h.tail s hs

/-! ## Summaries -/

namespace Plan

variable {p q : Plan}

/-- A plan whose entries can be told apart in a summary: no name and no note has a line
feed in it, no note is empty, and in the names of items to add no parenthesis is opened. -/
structure Legible (p : Plan) : Prop where
  add : ∀ e ∈ p.add, e.Legible
  remove : ∀ e ∈ p.remove, '\n' ∉ e.name
  adjust : ∀ e ∈ p.adjust, '\n' ∉ e.name

instance (p : Plan) : Decidable p.Legible :=
  decidable_of_iff ((∀ e ∈ p.add, e.Legible) ∧ (∀ e ∈ p.remove, '\n' ∉ e.name) ∧
      ∀ e ∈ p.adjust, '\n' ∉ e.name)
    ⟨fun ⟨hadd, hremove, hadjust⟩ => ⟨hadd, hremove, hadjust⟩,
      fun h => ⟨h.add, h.remove, h.adjust⟩⟩

/-- The headings of a summary with the lines below them. -/
def sections (p : Plan) : List (Text × List Text) :=
  [("Add:", p.add.map AddEntry.line), ("Remove:", p.remove.map RemoveEntry.line),
    ("Adjust:", p.adjust.map AdjustEntry.line)]

theorem sections_sections (p : Plan) : Sections p.sections where
  nodup := by
    show (["Add:", "Remove:", "Adjust:"] : List Text).Nodup
    decide
  heading := by simp [sections, isEntryLine]
  lines := by
    have hadd (e : AddEntry) : e.line.head? = some '-' := by
      unfold AddEntry.line
      split <;> rfl
    simp [sections, hadd, RemoveEntry.line, AdjustEntry.line, isEntryLine]

theorem summaryLines_eq (p : Plan) : p.summaryLines = sectionLines p.sections := by
  simp [summaryLines, sectionLines, sections]

theorem isEmpty_iff_sections : p.isEmpty = true ↔ ∀ s ∈ p.sections, s.2 = [] := by
  simp [isEmpty, sections, and_assoc]

/-- The lines that are shown for a plan. -/
def shownLines (p : Plan) : List Text :=
  if p.isEmpty then [nothingActionable] else p.summaryLines

theorem summary_eq_lines (p : Plan) : p.summary = Text.lines p.shownLines := by
  have hone (line : Text) : Text.lines [line] = line := by simp [Text.lines, Text.join]
  rw [summary, shownLines]
  split
  · rw [hone]
  · rfl

theorem shownLines_ne_nil (p : Plan) : p.shownLines ≠ [] := by
  rw [shownLines]
  split
  · exact List.cons_ne_nil _ _
  · next hsome =>
    rw [isEmpty_iff_sections] at hsome
    rw [summaryLines_eq]
    exact fun hnil => hsome fun s hs => headed_eq_nil (List.flatMap_eq_nil_iff.mp hnil s hs)

theorem Legible.notMem_shownLines (hp : p.Legible) : ∀ line ∈ p.shownLines, '\n' ∉ line := by
  have hnumeral {n : Int} : '\n' ∉ Text.ofSigned n := Text.notMem_ofSigned (by decide)
  have hsections : ∀ s ∈ p.sections, '\n' ∉ s.1 ∧ ∀ line ∈ s.2, '\n' ∉ line := by
    simp only [sections, List.forall_mem_cons, List.forall_mem_map]
    refine ⟨⟨by decide, fun e he => AddEntry.notMem_line (hp.add e he)⟩,
      ⟨by decide, fun e he => ?_⟩, ⟨by decide, fun e he => ?_⟩, nofun⟩
    · simp [RemoveEntry.line, hp.remove e he]
    · simp [AdjustEntry.line, hp.adjust e he, hnumeral]
  intro line hline
  rw [shownLines] at hline
  split at hline
  · rw [List.mem_singleton.mp hline]
    decide
  · rw [summaryLines_eq] at hline
    obtain ⟨s, hs, hline⟩ := List.mem_flatMap.mp hline
    rcases mem_headed hline with rfl | hline
    · exact (hsections s hs).1
    · exact (hsections s hs).2 line hline

/-- **The lines of each kind can be read off the summary.** -/
theorem Legible.linesUnder_summary (hp : p.Legible) :
    ∀ s ∈ p.sections, linesUnder s.1 (p.summary.splitOn '\n') = s.2 := by
  have hlines : p.summary.splitOn '\n' = p.shownLines := by
    rw [summary_eq_lines]
    exact List.splitOn_intercalate '\n' hp.notMem_shownLines p.shownLines_ne_nil
  intro s hs
  rw [hlines, shownLines]
  split
  · next hnone =>
    have hheading : ∀ s ∈ p.sections, s.1 ∉ [nothingActionable] := by
      simp only [sections, List.forall_mem_cons]
      exact ⟨by decide, by decide, by decide, nofun⟩
    rw [linesUnder_eq_nil (hheading s hs), isEmpty_iff_sections.mp hnone s hs]
  · rw [summaryLines_eq]
    exact linesUnder_sectionLines p.sections_sections s hs

/-- **A summary says all that is asked.**  Two plans whose entries can be told apart in a
summary have the same summary if and only if they ask for the same: the same entries
of every kind, with their names, quantities, notes and changes, in the same order. -/
theorem summary_eq_iff (hp : p.Legible) (hq : q.Legible) :
    p.summary = q.summary ↔ p.add = q.add ∧ p.remove = q.remove ∧ p.adjust = q.adjust := by
  constructor
  · intro h
    have hread (heading : Text) {lines lines' : List Text}
        (hlines : (heading, lines) ∈ p.sections) (hlines' : (heading, lines') ∈ q.sections) :
        lines = lines' := by
      have hleft := hp.linesUnder_summary _ hlines
      have hright := hq.linesUnder_summary _ hlines'
      rw [← h] at hright
      exact hleft.symm.trans hright
    have hadd : p.add.map AddEntry.line = q.add.map AddEntry.line :=
      hread "Add:" (by simp [sections]) (by simp [sections])
    have hremove : p.remove.map RemoveEntry.line = q.remove.map RemoveEntry.line :=
      hread "Remove:" (by simp [sections]) (by simp [sections])
    have hadjust : p.adjust.map AdjustEntry.line = q.adjust.map AdjustEntry.line :=
      hread "Adjust:" (by simp [sections]) (by simp [sections])
    refine ⟨eq_of_map_eq ?_ hadd, eq_of_map_eq ?_ hremove, eq_of_map_eq ?_ hadjust⟩
    · exact fun e he e' he' => AddEntry.line_inj (hp.add e he) (hq.add e' he')
    · exact fun e _ e' _ => RemoveEntry.line_inj
    · exact fun e _ e' _ => AdjustEntry.line_inj
  · rintro ⟨hadd, hremove, hadjust⟩
    rw [summary, summary, isEmpty, isEmpty, summaryLines, summaryLines, hadd, hremove, hadjust]

/-- Names that look like the text around them change nothing. -/
theorem summary_eq_iff_confusingNames :
    let p : Plan :=
      ⟨[⟨"2 × eggs", 1, some "a) (b"⟩], [⟨"Adjust:"⟩, ⟨"- +1 milk"⟩], [⟨"- 1", -1⟩], "first"⟩
    let q : Plan := { p with raw := "second" }
    let r : Plan := { p with remove := [⟨"Adjust:"⟩], adjust := [⟨"milk", 1⟩, ⟨"- 1", -1⟩] }
    p.Legible ∧ q.Legible ∧ r.Legible ∧ p.summary = q.summary ∧ p.summary ≠ r.summary := by
  intro p q r
  have hp : p.Legible := by decide
  have hq : q.Legible := by decide
  have hr : r.Legible := by decide
  refine ⟨hp, hq, hr, (summary_eq_iff hp hq).mpr ⟨rfl, rfl, rfl⟩, fun h => ?_⟩
  obtain ⟨-, hremove, -⟩ := (summary_eq_iff hp hr).mp h
  exact absurd hremove (by decide)

end Plan
end SpokenList
