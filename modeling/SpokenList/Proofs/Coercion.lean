import Mathlib.Logic.Basic
import SpokenList.Proofs.CanonicalForms
import SpokenList.Proofs.Words
import SpokenList.Proposal.Coerce

/-! # What is kept of a proposal

Anything may be proposed, but a plan holds named items only, and only numbers within
the bounds.  What it cannot hold is dropped, one proposed entry at a time, and all the
rest is kept, in the same order and without merging any (`Proposal.coerce_exact`).

The rules by which entries are dropped are not those by which a plan is checked: a name
is judged by its words and not by its characters, and the size of a change is compared
without its sign.  But the two agree on every entry: what is kept passes the checks,
and what is dropped would not have passed them.
-/
namespace SpokenList

variable {limits : Limits}

/-! ## Texts -/

namespace Text

/-- There are other characters than blanks in the text. -/
def SaysSomething (t : Text) : Prop := ∃ c ∈ t, isBlank c = false

instance (t : Text) : Decidable t.SaysSomething := inferInstanceAs (Decidable (∃ c ∈ t, _))

/-- The runs of characters that are not blank, with one space between any two. -/
def respaced (t : Text) : Text := [' '].intercalate ((t.splitOnP isBlank).filter (· ≠ []))

theorem collapse_eq_respaced (t : Text) : collapse t = t.respaced := by
  have hkept : words t = (t.splitOnP isBlank).filter (· ≠ []) :=
    List.filter_congr fun w _ => by cases w <;> rfl
  rw [collapse, hkept]
  rfl

theorem collapse_respaced (t : Text) : collapse t.respaced = t.respaced := by
  rw [← collapse_eq_respaced, collapse_collapse]

theorem respaced_ne_nil_iff {t : Text} : t.respaced ≠ [] ↔ t.SaysSomething := by
  have hwords : collapse t = [] ↔ words t = [] :=
    join_eq_nil_iff fun w hw => (mem_fields hw).1
  rw [← collapse_eq_respaced, ne_eq, hwords, words_eq_nil, SaysSomething, isBlankText]
  simp

/-- Nothing comes of a name without words. -/
theorem bind_collapsed? {β : Type} (t : Text) (f : Text → Option β) :
    (collapsed? t).bind f = if t.SaysSomething then f t.respaced else none := by
  simp only [← respaced_ne_nil_iff, ← collapse_eq_respaced]
  by_cases h : collapse t = []
  · rw [collapsed?, h]
    rfl
  · have hne : (collapse t).isEmpty = false := by simpa using h
    rw [if_pos h, collapsed?]
    simp only [hne]
    rfl

end Text

/-! ## Items to add -/

namespace ProposedAdd

/-- The item has a name, and of it are wanted one at least, one if nothing is said, and
no more than the limit. -/
def Acceptable (limits : Limits) (a : ProposedAdd) : Prop :=
  a.name.SaysSomething ∧ 1 ≤ a.quantity.getD 1 ∧ a.quantity.getD 1 ≤ limits.quantity

instance (limits : Limits) (a : ProposedAdd) : Decidable (a.Acceptable limits) :=
  inferInstanceAs (Decidable (_ ∧ _ ∧ _))

/-- The item as it stands in a plan: its texts have single spaces, and a blank note is none. -/
def entry (a : ProposedAdd) : AddEntry :=
  ⟨a.name.respaced, a.quantity.getD 1, (a.note.filter (·.SaysSomething)).map Text.respaced⟩

theorem bind_note_eq (a : ProposedAdd) : a.note.bind Text.collapsed? = a.entry.note := by
  show _ = (a.note.filter (·.SaysSomething)).map Text.respaced
  cases a.note with
  | none => rfl
  | some note =>
    have hread : Text.collapsed? note = (Text.collapsed? note).bind some := by simp
    show Text.collapsed? note = ((some note).filter (·.SaysSomething)).map Text.respaced
    rw [hread, Text.bind_collapsed?, Option.filter_some]
    by_cases h : note.SaysSomething <;> simp [h]

theorem accepted?_eq (limits : Limits) (a : ProposedAdd) :
    a.accepted? limits = if a.Acceptable limits then some a.entry else none := by
  have hread : a.accepted? limits = (Text.collapsed? a.name).bind fun name =>
      if 1 ≤ a.amount ∧ a.amount ≤ limits.quantity then
        some ⟨name, a.amount, a.note.bind Text.collapsed?⟩
      else none := rfl
  rw [hread, Text.bind_collapsed?, bind_note_eq, ← ite_and]
  rfl

/-- A plan can hold what is acceptable. -/
theorem acceptable_iff {a : ProposedAdd} : a.Acceptable limits ↔ a.entry.Admissible limits :=
  and_congr_left fun _ => Text.respaced_ne_nil_iff.symm

end ProposedAdd

/-! ## Items to remove -/

namespace ProposedRemove

/-- The item has a name. -/
def Acceptable (r : ProposedRemove) : Prop := r.name.SaysSomething

instance (r : ProposedRemove) : Decidable r.Acceptable :=
  inferInstanceAs (Decidable (Text.SaysSomething _))

/-- The item as it stands in a plan. -/
def entry (r : ProposedRemove) : RemoveEntry := ⟨r.name.respaced⟩

theorem accepted?_eq (r : ProposedRemove) :
    r.accepted? = if r.Acceptable then some r.entry else none := by
  rw [accepted?, Option.map_eq_bind, Text.bind_collapsed?]
  rfl

theorem acceptable_iff {r : ProposedRemove} : r.Acceptable ↔ r.entry.Admissible :=
  Text.respaced_ne_nil_iff.symm

end ProposedRemove

/-! ## Changes of quantities -/

namespace ProposedAdjust

/-- The item has a name, and its quantity changes, by no more than the limit. -/
def Acceptable (limits : Limits) (a : ProposedAdjust) : Prop :=
  a.name.SaysSomething ∧ a.delta ≠ 0 ∧ a.delta.natAbs ≤ limits.quantity

instance (limits : Limits) (a : ProposedAdjust) : Decidable (a.Acceptable limits) :=
  inferInstanceAs (Decidable (_ ∧ _ ∧ _))

/-- The change as it stands in a plan. -/
def entry (a : ProposedAdjust) : AdjustEntry := ⟨a.name.respaced, a.delta⟩

theorem accepted?_eq (limits : Limits) (a : ProposedAdjust) :
    a.accepted? limits = if a.Acceptable limits then some a.entry else none := by
  have hread : a.accepted? limits = (Text.collapsed? a.name).bind fun name =>
      if a.delta ≠ 0 ∧ a.delta.natAbs ≤ limits.quantity then some ⟨name, a.delta⟩ else none := rfl
  rw [hread, Text.bind_collapsed?, ← ite_and]
  rfl

/-- A plan bounds a change on both sides, which comes to the same. -/
theorem acceptable_iff {a : ProposedAdjust} : a.Acceptable limits ↔ a.entry.Admissible limits := by
  refine and_congr Text.respaced_ne_nil_iff.symm ?_
  show a.delta ≠ 0 ∧ a.delta.natAbs ≤ limits.quantity ↔
    -limits.quantity ≤ a.delta ∧ a.delta ≤ limits.quantity ∧ a.delta ≠ 0
  omega

end ProposedAdjust

/-! ## The checks of a plan -/

/-- On the wire an addition always has its quantity, so the quantity is checked. -/
theorem AddEntry.ofJson_toJson_iff {channel : Checked.Channel} {e : AddEntry} :
    ofJson limits channel e.toJson = .ok e ↔ e.Admissible limits := by
  refine ⟨fun h => ?_, ofJson_toJson channel⟩
  obtain ⟨fields, hfields, -, hcounted, -⟩ := e.exists_fields
  rw [hfields] at h
  obtain ⟨⟨name, quantity, note⟩, hboth, rfl⟩ := Checked.exists_ok_of_map h
  obtain ⟨hname, hrest⟩ := Checked.both_eq_ok_iff.mp hboth
  obtain ⟨hquantity, -⟩ := Checked.both_eq_ok_iff.mp hrest
  rw [Checked.optional_eq_ok_iff hcounted] at hquantity
  exact ⟨(Checked.ensures_name.required "name") _ _ hname,
    Checked.ensures_integerWithin _ _ _ _ hquantity⟩

theorem RemoveEntry.ofJson_toJson_iff {channel : Checked.Channel} {e : RemoveEntry} :
    ofJson channel e.toJson = .ok e ↔ e.Admissible :=
  ⟨ensures_ofJson channel e.toJson e, ofJson_toJson channel⟩

theorem AdjustEntry.ofJson_toJson_iff {channel : Checked.Channel} {e : AdjustEntry} :
    ofJson limits channel e.toJson = .ok e ↔ e.Admissible limits :=
  ⟨ensures_ofJson limits channel e.toJson e, ofJson_toJson channel⟩

/-! ## Proposals -/

namespace Proposal

/-- The plan holds the entries that are acceptable, as they stand in a plan. -/
theorem coerce_eq (limits : Limits) (raw : Text) (p : Proposal) :
    p.coerce limits raw =
      { add := (p.add.filter (·.Acceptable limits)).map ProposedAdd.entry
        remove := (p.remove.filter (·.Acceptable)).map ProposedRemove.entry
        adjust := (p.adjust.filter (·.Acceptable limits)).map ProposedAdjust.entry
        raw := raw } := by
  have hadd := funext (ProposedAdd.accepted?_eq limits)
  have hremove := funext ProposedRemove.accepted?_eq
  have hadjust := funext (ProposedAdjust.accepted?_eq limits)
  rw [coerce, hadd, hremove, hadjust, filterMap_ite, filterMap_ite, filterMap_ite]

/-- **Whatever is proposed, the plan that comes of it is within the bounds.** -/
theorem coerce_admissible (limits : Limits) (raw : Text) (p : Proposal) :
    (p.coerce limits raw).Admissible limits := by
  rw [coerce_eq]
  refine ⟨fun e he => ?_, fun e he => ?_, fun e he => ?_⟩
  · obtain ⟨a, ha, rfl⟩ := List.mem_map.mp he
    exact ProposedAdd.acceptable_iff.mp (of_decide_eq_true (List.mem_filter.mp ha).2)
  · obtain ⟨r, hr, rfl⟩ := List.mem_map.mp he
    exact ProposedRemove.acceptable_iff.mp (of_decide_eq_true (List.mem_filter.mp hr).2)
  · obtain ⟨a, ha, rfl⟩ := List.mem_map.mp he
    exact ProposedAdjust.acceptable_iff.mp (of_decide_eq_true (List.mem_filter.mp ha).2)

/-- **Exactly the entries that no plan can hold are dropped.**  The others are kept in
the order in which they were proposed, none of them merged, with their texts collapsed;
and the words of the command are kept.  An entry is acceptable if and only if what it
stands for passes the checks of a plan, over either channel, so nothing is refused of
the plan that comes of it. -/
theorem coerce_exact (limits : Limits) (raw : Text) (p : Proposal) :
    let plan := p.coerce limits raw
    plan.add = (p.add.filter (·.Acceptable limits)).map ProposedAdd.entry ∧
      plan.remove = (p.remove.filter (·.Acceptable)).map ProposedRemove.entry ∧
      plan.adjust = (p.adjust.filter (·.Acceptable limits)).map ProposedAdjust.entry ∧
      plan.raw = raw ∧
      ∀ channel,
        (∀ a : ProposedAdd, AddEntry.ofJson limits channel a.entry.toJson = .ok a.entry ↔
          a.Acceptable limits) ∧
        (∀ r : ProposedRemove, RemoveEntry.ofJson channel r.entry.toJson = .ok r.entry ↔
          r.Acceptable) ∧
        (∀ a : ProposedAdjust, AdjustEntry.ofJson limits channel a.entry.toJson = .ok a.entry ↔
          a.Acceptable limits) ∧
        Plan.ofJson limits channel plan.toJson = .ok plan := by
  intro plan
  have heq : plan = _ := coerce_eq limits raw p
  have hadmissible : plan.Admissible limits := coerce_admissible limits raw p
  refine ⟨congrArg Plan.add heq, congrArg Plan.remove heq, congrArg Plan.adjust heq,
    congrArg Plan.raw heq, fun channel => ⟨fun a => ?_, fun r => ?_, fun a => ?_, ?_⟩⟩
  · exact AddEntry.ofJson_toJson_iff.trans ProposedAdd.acceptable_iff.symm
  · exact RemoveEntry.ofJson_toJson_iff.trans ProposedRemove.acceptable_iff.symm
  · exact AdjustEntry.ofJson_toJson_iff.trans ProposedAdjust.acceptable_iff.symm
  · exact Plan.ofJson_toJson channel hadmissible

/-- The limit itself is kept, either way, and equal entries stay apart. -/
example : coerce .standard "raw"
    ⟨[⟨"\u00a0pork \t chops", none, some " "⟩, ⟨"milk", some 1000, none⟩, ⟨"\u2003", some 1, none⟩,
        ⟨"milk", some 999, some " when\ncheap"⟩],
      [⟨""⟩, ⟨"eggs "⟩, ⟨"eggs"⟩], [⟨"apples", -999⟩, ⟨"apples", 0⟩, ⟨"apples", -1000⟩]⟩ =
    ⟨[⟨"pork chops", 1, none⟩, ⟨"milk", 999, some "when cheap"⟩], [⟨"eggs"⟩, ⟨"eggs"⟩],
      [⟨"apples", -999⟩], "raw"⟩ := by decide +kernel

end Proposal
end SpokenList
