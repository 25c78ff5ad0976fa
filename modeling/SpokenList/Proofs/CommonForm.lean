import SpokenList.Proofs.Coercion
import SpokenList.Proofs.CompiledPlans

/-! # One form for the plans of both producers

A plan comes from the compiler or from a proposal of the assistant.  The two clean
names and notes in different ways, yet their plans have one form: whatever plan either
of them gives, if it is read as a proposal then nothing is left to be done to it, and
the same plan comes of it (`Plan.one_form`).

What that takes is that every entry is within the bounds and that its texts are
collapsed and say something (`Plan.Settled`).  Such a plan is a fixed point of the
reading (`Plan.coerce_proposed`), and both producers give no others
(`Proposal.settled_coerce`, `Utterance.settled_compile`).
-/
namespace SpokenList

variable {limits : Limits}

/-! ## Plans as proposals -/

/-- The addition as a proposal. -/
def AddEntry.proposed (e : AddEntry) : ProposedAdd := ⟨e.name, some e.quantity, e.note⟩

/-- The removal as a proposal. -/
def RemoveEntry.proposed (e : RemoveEntry) : ProposedRemove := ⟨e.name⟩

/-- The change as a proposal. -/
def AdjustEntry.proposed (e : AdjustEntry) : ProposedAdjust := ⟨e.name, e.delta⟩

/-- The plan as a proposal, without the words of the command. -/
def Plan.proposed (p : Plan) : Proposal :=
  ⟨p.add.map AddEntry.proposed, p.remove.map RemoveEntry.proposed, p.adjust.map AdjustEntry.proposed⟩

theorem ProposedAdd.ofJson_toJson (e : AddEntry) : ofJson e.toJson = .ok e.proposed := by
  have hname : Checked.text (.text e.name) = .ok e.name := rfl
  have hquantity : Checked.orNull Checked.integer (.integer e.quantity) = .ok (some e.quantity) := rfl
  obtain ⟨fields, hfields, hnamed, hcounted, hnoted⟩ := e.exists_fields
  rw [hfields]
  exact congrArg (Except.map _) (Checked.both_of_ok (Checked.required_of_ok hnamed hname)
    (Checked.both_of_ok (Checked.optional_of_ok hcounted hquantity) (Checked.optional_text hnoted)))

theorem ProposedRemove.ofJson_toJson (e : RemoveEntry) : ofJson e.toJson = .ok e.proposed := by
  have hname : Checked.text (.text e.name) = .ok e.name := rfl
  exact congrArg (Except.map _)
    (Checked.required_of_ok (Json.field?_objectOf (by simp) (.head _)) hname)

theorem ProposedAdjust.ofJson_toJson (e : AdjustEntry) : ofJson e.toJson = .ok e.proposed := by
  have hname : Checked.text (.text e.name) = .ok e.name := rfl
  have hdelta : Checked.integer (.integer e.delta) = .ok e.delta := rfl
  exact congrArg (Except.map _) (Checked.both_of_ok
    (Checked.required_of_ok (Json.field?_objectOf (by simp) (.head _)) hname)
    (Checked.required_of_ok (Json.field?_objectOf (by simp) (.tail _ (.head _))) hdelta))

/-- Any plan on the wire can be read as a proposal. -/
theorem Proposal.ofJson_toJson (p : Plan) : ofJson p.toJson = .ok p.proposed := by
  have hadd := Checked.list_map .notList fun e (_ : e ∈ p.add) => ProposedAdd.ofJson_toJson e
  have hremove := Checked.list_map .notList
    fun e (_ : e ∈ p.remove) => ProposedRemove.ofJson_toJson e
  have hadjust := Checked.list_map .notList
    fun e (_ : e ∈ p.adjust) => ProposedAdjust.ofJson_toJson e
  exact congrArg (Except.map _) (Checked.both_of_ok
    (Checked.optional_of_ok (Json.field?_objectOf (by simp) (.head _)) hadd)
    (Checked.both_of_ok
      (Checked.optional_of_ok (Json.field?_objectOf (by simp) (.tail _ (.head _))) hremove)
      (Checked.optional_of_ok (Json.field?_objectOf (by simp) (.tail _ (.tail _ (.head _)))) hadjust)))

/-! ## Settled plans -/

/-- Nothing is left to be done to the plan: its entries are within the bounds, and its
texts are collapsed and say something. -/
structure Plan.Settled (limits : Limits) (p : Plan) : Prop where
  admissible : p.Admissible limits
  names : ∀ e ∈ p.entries, Text.collapse e.name = e.name
  notes : ∀ e ∈ p.add, ∀ note ∈ e.note, note ≠ [] ∧ Text.collapse note = note

theorem AddEntry.entry_proposed {e : AddEntry} (hname : Text.collapse e.name = e.name)
    (hnote : ∀ note ∈ e.note, note ≠ [] ∧ Text.collapse note = note) : e.proposed.entry = e := by
  obtain ⟨name, quantity, note⟩ := e
  show (⟨name.respaced, quantity, (note.filter (·.SaysSomething)).map Text.respaced⟩ : AddEntry) = _
  rw [← Text.collapse_eq_respaced, show Text.collapse name = name from hname]
  cases note with
  | none => rfl
  | some note =>
    obtain ⟨hne, hcollapse⟩ := hnote note rfl
    rw [Text.collapse_eq_respaced] at hcollapse
    have hsays : note.SaysSomething := Text.respaced_ne_nil_iff.mp (hcollapse.symm ▸ hne)
    rw [Option.filter_some, if_pos (decide_eq_true hsays), Option.map_some, hcollapse]

theorem RemoveEntry.entry_proposed {e : RemoveEntry} (hname : Text.collapse e.name = e.name) :
    e.proposed.entry = e :=
  congrArg RemoveEntry.mk ((Text.collapse_eq_respaced _).symm.trans hname)

theorem AdjustEntry.entry_proposed {e : AdjustEntry} (hname : Text.collapse e.name = e.name) :
    e.proposed.entry = e :=
  congrArg (AdjustEntry.mk · e.delta) ((Text.collapse_eq_respaced _).symm.trans hname)

/-- All is kept of what is acceptable and stands for what it was made from. -/
theorem map_filter_map_eq_self {α β : Type} {p : β → Bool} {f : β → α} {g : α → β} {xs : List α}
    (h : ∀ x ∈ xs, f (g x) = x ∧ p (g x) = true) : ((xs.map g).filter p).map f = xs := by
  have hall : (xs.map g).filter p = xs.map g :=
    List.filter_eq_self.mpr (List.forall_mem_map.mpr fun x hx => (h x hx).2)
  calc ((xs.map g).filter p).map f = xs.map fun x => f (g x) := by rw [hall, List.map_map]; rfl
    _ = xs.map id := List.map_congr_left fun x hx => (h x hx).1
    _ = xs := List.map_id xs

/-- **A settled plan that is read as a proposal comes back.** -/
theorem Plan.coerce_proposed {p : Plan} (h : p.Settled limits) :
    p.proposed.coerce limits p.raw = p := by
  obtain ⟨⟨hadd, hremove, hadjust⟩, hnames, hnotes⟩ := h
  obtain ⟨hadjusted, hremoved, hadded⟩ := Utterance.forall_mem_entries.mp hnames
  have hadds : (p.proposed.add.filter (·.Acceptable limits)).map ProposedAdd.entry = p.add := by
    refine map_filter_map_eq_self fun e he => ?_
    have hentry := AddEntry.entry_proposed (hadded e he) (hnotes e he)
    have hadmissible : e.proposed.entry.Admissible limits := hentry.symm ▸ hadd e he
    exact ⟨hentry, decide_eq_true (ProposedAdd.acceptable_iff.mpr hadmissible)⟩
  have hremoves : (p.proposed.remove.filter (·.Acceptable)).map ProposedRemove.entry = p.remove := by
    refine map_filter_map_eq_self fun e he => ?_
    have hentry := RemoveEntry.entry_proposed (hremoved e he)
    have hadmissible : e.proposed.entry.Admissible := hentry.symm ▸ hremove e he
    exact ⟨hentry, decide_eq_true (ProposedRemove.acceptable_iff.mpr hadmissible)⟩
  have hadjusts :
      (p.proposed.adjust.filter (·.Acceptable limits)).map ProposedAdjust.entry = p.adjust := by
    refine map_filter_map_eq_self fun e he => ?_
    have hentry := AdjustEntry.entry_proposed (hadjusted e he)
    have hadmissible : e.proposed.entry.Admissible limits := hentry.symm ▸ hadjust e he
    exact ⟨hentry, decide_eq_true (ProposedAdjust.acceptable_iff.mpr hadmissible)⟩
  rw [Proposal.coerce_eq, hadds, hremoves, hadjusts]

/-! ## Both producers -/

theorem Proposal.settled_coerce (limits : Limits) (raw : Text) (p : Proposal) :
    (p.coerce limits raw).Settled limits := by
  refine ⟨p.coerce_admissible limits raw, ?_, ?_⟩
  · rw [coerce_eq]
    refine Utterance.forall_mem_entries.mpr ⟨?_, ?_, ?_⟩
    · exact List.forall_mem_map.mpr fun a _ => Text.collapse_respaced a.name
    · exact List.forall_mem_map.mpr fun r _ => Text.collapse_respaced r.name
    · exact List.forall_mem_map.mpr fun a _ => Text.collapse_respaced a.name
  · rw [coerce_eq]
    refine List.forall_mem_map.mpr fun a _ note hnote => ?_
    obtain ⟨said, hsaid, rfl⟩ := Option.map_eq_some_iff.mp hnote
    have hsays : said.SaysSomething := of_decide_eq_true (Option.mem_filter_iff.mp hsaid).2
    exact ⟨Text.respaced_ne_nil_iff.mpr hsays, Text.collapse_respaced said⟩

namespace Utterance

/-- A note is part of its text, without the blanks at its ends. -/
theorem collapse_note_takeNote {t note : Text} (ht : Text.SingleSpaced t)
    (h : note ∈ (takeNote t).note) : Text.collapse note = note := by
  unfold takeNote at h
  split at h
  · cases h
  · rename_i c inside hinside
    obtain ⟨-, rfl⟩ : ¬ _ ∧ _ = note := by simpa [nonEmpty?] using h
    have hsuffix : inside <:+ t := by
      have hdrop : c :: inside <:+ t := hinside ▸ List.dropWhile_suffix _
      exact (List.suffix_cons c inside).trans hdrop
    have hpart : inside.takeWhile (· != ')') <:+: t :=
      (List.takeWhile_prefix _).isInfix.trans hsuffix.isInfix
    obtain ⟨front, back, heq, -, -⟩ :=
      Text.eq_append_trim_append Text.isBlank (inside.takeWhile (· != ')'))
    have hstrip : Text.strip (inside.takeWhile (· != ')')) <:+: inside.takeWhile (· != ')') :=
      ⟨front, back, heq.symm⟩
    exact Text.collapse_eq_self_iff.mpr
      ⟨ht.of_isInfix (hstrip.trans hpart), Text.trimmed_trim Text.isBlank _⟩

/-- The words of a group have single spaces between them, also where a note stands. -/
theorem collapse_note_addEntries {s note : Text} {e : AddEntry} (he : e ∈ addEntries limits s)
    (h : note ∈ e.note) : Text.collapse note = note := by
  obtain ⟨g, hg, hentry⟩ := List.mem_filterMap.mp he
  simp only [Group.addition?] at hentry
  split at hentry
  · cases hentry
  · obtain rfl := Option.some.inj hentry
    have hwords : ∀ w ∈ g.words, Text.IsField Text.isBlank w := fun w hw =>
      (Text.mem_fields ((mem_groups hg).2 w hw)).1
    exact collapse_note_takeNote (Text.singleSpaced_join hwords).1 h

theorem collapse_note_plan {raw note : Text} {e : AddEntry} {i : Intent}
    (he : e ∈ (i.plan limits raw).add) (h : note ∈ e.note) : Text.collapse note = note := by
  cases i with
  | remove items => cases he
  | adjust up token items => cases he
  | add items =>
    obtain ⟨s, -, hmem⟩ := List.mem_flatMap.mp he
    exact collapse_note_addEntries hmem h

/-- Within limits that leave room for the number words, what is compiled is settled. -/
theorem settled_compile (hlimits : 10 ≤ limits.quantity) (t : Text) :
    (compile limits t).Settled limits := by
  obtain ⟨hplan, -⟩ := wellFormed_compile limits t
  refine ⟨hplan.admissible hlimits, fun e he => ?_, fun e he note hnote => ⟨?_, ?_⟩⟩
  · rw [← (hplan.names e he).itemName]
    exact collapse_itemName e.name
  · exact (hplan.notes e he note hnote).1
  · rw [compile_eq_plan] at he
    exact collapse_note_plan he hnote

end Utterance

/-- **The plans of both producers have one form.**  What comes of a proposal, whatever
is proposed, and what a command compiles to, whatever is said, is written on the wire
as a document that can be read as a proposal, and the same plan comes of that.  So the
plans of the compiler pass through unchanged, if the limits leave room for the number
words. -/
theorem Plan.one_form (limits : Limits) :
    (∀ (p : Proposal) (raw : Text),
      (Proposal.ofJson (p.coerce limits raw).toJson).map (Proposal.coerce limits raw) =
        .ok (p.coerce limits raw)) ∧
    (10 ≤ limits.quantity → ∀ utterance : Option Text,
      let raw := utterance.getD []
      (Proposal.ofJson (Utterance.compile limits raw).toJson).map (Proposal.coerce limits raw) =
        .ok (Utterance.compile limits raw)) := by
  have hread (plan : Plan) (h : plan.Settled limits) :
      (Proposal.ofJson plan.toJson).map (Proposal.coerce limits plan.raw) = .ok plan := by
    rw [Proposal.ofJson_toJson]
    exact congrArg Except.ok (coerce_proposed h)
  refine ⟨fun p raw => hread _ (p.settled_coerce limits raw), fun hlimits utterance => ?_⟩
  have hraw := (Utterance.wellFormed_compile limits (utterance.getD [])).2
  have hcompiled := hread _ (Utterance.settled_compile hlimits (utterance.getD []))
  rwa [hraw] at hcompiled

/-- A reply with blanks of many kinds, blank texts and a number out of bounds, and a
command with a note across a comma. -/
theorem Plan.one_form_blankTexts :
    let p : Proposal := ⟨[⟨" pork\u00a0\n chops ", none, some " \t"⟩, ⟨"Milk", some 1000, none⟩],
      [⟨" \u2003"⟩, ⟨"the  eggs"⟩], [⟨"Apples ", -999⟩]⟩
    let said : Text := "Please ADD two  bags of Milk ( when\u3000cheap, or ripe) of course"
    let reply := p.coerce .standard said
    let command := Utterance.compile .standard said
    10 ≤ Limits.standard.quantity ∧
      reply = ⟨[⟨"pork chops", 1, none⟩], [⟨"the eggs"⟩], [⟨"Apples", -999⟩], said⟩ ∧
      (Proposal.ofJson reply.toJson).map (Proposal.coerce .standard said) = .ok reply ∧
      command = ⟨[⟨"milk", 2, some "when cheap"⟩, ⟨"or ripe) course", 1, none⟩], [], [], said⟩ ∧
      (Proposal.ofJson command.toJson).map (Proposal.coerce .standard said) = .ok command := by
  intro p said reply command
  have hlimits : 10 ≤ Limits.standard.quantity := by decide
  obtain ⟨hreply, hcommand⟩ := one_form .standard
  exact ⟨hlimits, by decide +kernel, hreply p said, by decide +kernel, hcommand hlimits (some said)⟩

end SpokenList
