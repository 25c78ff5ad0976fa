import SpokenList.Proofs.Accounting
import SpokenList.Proofs.Beginnings

/-! # What the journal tells of a command

From the level `info` upwards a command is noted by its kind, by numbers and by a
preview of fifty characters: the compiler notes one such record
(`Utterance.fromInfo_journal`), and carrying the plan out notes how many entries
went how.  An entry that matches no row is the exception, since it is noted with
the whole name of its item (`Execution.fromInfo_journal`).

So two commands with the same preview, whose entries are of the same kinds and
meet with the same, leave the same records exactly if the items that they miss
have the same names (`Execution.records_eq_iff`); and names may differ beyond the
preview (`Execution.records_differ_longName`).
-/
namespace SpokenList

/-- The records from the level `info` upwards. -/
def fromInfo (rs : List Record) : List Record := rs.filter fun r => r.level != .debug

theorem fromInfo_append (rs rs' : List Record) : fromInfo (rs ++ rs') = fromInfo rs ++ fromInfo rs' :=
  List.filter_append ..

/-- Parts of a journal that have no such record have none together. -/
theorem fromInfo_flatMap_eq_nil {α : Type} {xs : List α} {f : α → List Record}
    (h : ∀ x ∈ xs, fromInfo (f x) = []) : fromInfo (xs.flatMap f) = [] := by
  rw [fromInfo, List.filter_flatMap]
  exact List.flatMap_eq_nil_iff.mpr h

/-- The preview of a long text is its beginning. -/
theorem Text.preview_congr {s t : Text} (hs : 50 < s.length) (ht : 50 < t.length)
    (h : s.take 50 = t.take 50) : preview s previewLength = preview t previewLength := by
  have hlong {t : Text} (ht : 50 < t.length) : preview t previewLength = t.take 50 ++ "..." := by
    have hne : t.isEmpty = false := by
      cases t with
      | nil => cases ht
      | cons c t => rfl
    have hlength : ¬ (t.length : Int) ≤ previewLength := by
      show ¬ (t.length : Int) ≤ 50
      omega
    rw [preview, hne, if_neg Bool.false_ne_true, if_neg hlength]
    rfl
  rw [hlong hs, hlong ht, h]

namespace Utterance

variable {limits : Limits} {t : Text}

/-! ## Compiling -/

theorem Intent.entryCount_plan (limits : Limits) (raw raw' : Text) (i : Intent) :
    (i.plan limits raw).entryCount = (i.plan limits raw').entryCount := by
  cases i <;> rfl

/-- An aside is noted below the level. -/
theorem fromInfo_aside {c : Prop} [Decidable c] (message : Text) :
    fromInfo (if c then [aside message] else []) = [] := by
  split <;> rfl

/-- The compiler notes one record that is no aside. -/
theorem Intent.fromInfo_journal (limits : Limits) (t : Text) (i : Intent) :
    fromInfo (i.journal limits t) =
      [compiled i.operation (i.plan limits t).entryCount t] := by
  have hnameless (operation : Operation) (items : Text) :
      fromInfo ((segments items).flatMap (namelessSegment operation)) = [] :=
    fromInfo_flatMap_eq_nil fun _ _ => fromInfo_aside _
  cases i with
  | remove items =>
    rw [Intent.journal, fromInfo_append, hnameless]
    rfl
  | adjust up token items =>
    rw [Intent.journal, fromInfo_append, fromInfo_append, hnameless, fromInfo_aside]
    rfl
  | add items =>
    have hasides : fromInfo ((segments items).flatMap fun s =>
        commandAsItem s ++ (groups limits s).flatMap namelessGroup) = [] := by
      refine fromInfo_flatMap_eq_nil fun s _ => ?_
      have hgroups : fromInfo ((groups limits s).flatMap namelessGroup) = [] :=
        fromInfo_flatMap_eq_nil fun _ _ => fromInfo_aside _
      rw [fromInfo_append, hgroups, commandAsItem, fromInfo_aside]
      rfl
    rw [Intent.journal, fromInfo_append, hasides]
    rfl

theorem fromInfo_journal (limits : Limits) (ht : normalize t ≠ []) :
    fromInfo (journal limits t) =
      [compiled (intent (normalize t)).operation (compile limits t).entryCount (normalize t)] := by
  have hjournal : journal limits t = (intent (normalize t)).journal limits (normalize t) := by
    rw [journal]
    split
    · next h => exact absurd h ht
    · rfl
  rw [hjournal, Intent.fromInfo_journal, compile_eq_plan,
    Intent.entryCount_plan limits (normalize t) t]

end Utterance

/-! ## Carrying out -/

/-- The record of an entry that matches no row. -/
def Outcome.missed (o : Outcome) : Record :=
  ⟨.info, .execution, "No list item matches '" ++ o.entry.name ++ "', skipping " ++
    o.entry.operation.word⟩

/-- What was to be done with each item, and what became of it. -/
def Report.course (r : Report) : List (Operation × Status) :=
  r.map fun o => (o.entry.operation, o.status)

/-- The names of the items that matched no row. -/
def Report.missedNames (r : Report) : List Text := (r.having .noMatch).map fun o => o.entry.name

namespace Report

variable {r r' : Report}

theorem course_having (r : Report) (s : Status) :
    course (r.having s) = r.course.filter fun x => x.2 == s := by
  rw [course, having, course, List.filter_map]
  rfl

theorem count_eq_of_course (h : r.course = r'.course) (s : Status) : r.count s = r'.count s := by
  have hlength (r : Report) : r.count s = (r.course.filter fun x => x.2 == s).length := by
    rw [← course_having, course, List.length_map, count]
  rw [hlength, hlength, h]

/-- Outcomes of the same course are noted alike if their items have the same names. -/
theorem map_missed_eq_iff (h : r.course = r'.course) :
    r.map Outcome.missed = r'.map Outcome.missed ↔
      r.map (fun o => o.entry.name) = r'.map fun o => o.entry.name := by
  induction r generalizing r' with
  | nil =>
    obtain rfl : r' = [] := List.map_eq_nil_iff.mp h.symm
    exact iff_of_true rfl rfl
  | cons o rest ih =>
    cases r' with
    | nil => cases h
    | cons o' rest' =>
      obtain ⟨hfirst, hrest⟩ := List.cons.inj h
      have hword : o.entry.operation = o'.entry.operation := congrArg Prod.fst hfirst
      have hmissed : o.missed = o'.missed ↔ o.entry.name = o'.entry.name := by
        simp only [Outcome.missed, hword, Record.mk.injEq, true_and, List.append_cancel_right_eq,
          List.append_cancel_left_eq]
      simp only [List.map_cons, List.cons.injEq, hmissed, ih hrest]

theorem map_missed_having_eq_iff (h : r.course = r'.course) :
    (r.having .noMatch).map Outcome.missed = (r'.having .noMatch).map Outcome.missed ↔
      r.missedNames = r'.missedNames :=
  map_missed_eq_iff (by rw [course_having, course_having, h])

end Report

namespace Execution

section Run
variable {σ : Type} [Holder σ] {policy : FloorPolicy} {faults : Faults} {p : Progress σ}

/-- Of an entry whose write does not fail nothing is noted unless it matches no row. -/
theorem fromInfo_step (e : Entry) (h : (step policy faults p e).1.outcome.status ≠ .failed) :
    fromInfo (step policy faults p e).1.journal =
      (Report.having [(step policy faults p e).1.outcome] .noMatch).map Outcome.missed := by
  obtain ⟨-, hstep⟩ | ⟨effect, -, ⟨store, -, hstep⟩ | ⟨store, fault, -, hstep⟩⟩ :=
    step_cases policy faults p e
  · rw [hstep]
    rfl
  · rw [hstep]
    show fromInfo (if effect.exhausted = true then _ else []) = []
    split <;> rfl
  · rw [hstep] at h
    exact absurd rfl h

theorem fromInfo_run (entries : List Entry)
    (h : ∀ event ∈ (run policy faults p entries).1, event.outcome.status ≠ .failed) :
    fromInfo ((run policy faults p entries).1.flatMap Event.journal) =
      (Report.having ((run policy faults p entries).1.map Event.outcome) .noMatch).map
        Outcome.missed := by
  induction entries generalizing p with
  | nil => rfl
  | cons e rest ih =>
    rw [run_cons] at h ⊢
    obtain ⟨hfirst, hrest⟩ := List.forall_mem_cons.mp h
    rw [List.flatMap_cons, fromInfo_append, fromInfo_step e hfirst, ih hrest, List.map_cons,
      ← List.map_append, Report.having, Report.having, Report.having, ← List.filter_append,
      List.singleton_append]

/-- Where no write fails, the records are those of the items that are missed, and the
closing one. -/
theorem fromInfo_journal (plan : Plan) (snapshot : List Item) (start : σ)
    (h : ∀ o ∈ (ofPlan policy faults plan snapshot start).report, o.status ≠ .failed) :
    fromInfo (ofPlan policy faults plan snapshot start).journal =
      ((ofPlan policy faults plan snapshot start).report.having .noMatch).map Outcome.missed ++
        [closing (ofPlan policy faults plan snapshot start).report] := by
  have hrun : fromInfo ((run policy faults ⟨start, snapshot, 0⟩ plan.entries).1.flatMap
      Event.journal) = _ := fromInfo_run plan.entries fun event hevent => h event.outcome (List.mem_map_of_mem hevent)
  rw [journal, fromInfo_append]
  exact congrArg (· ++ [closing _]) hrun

theorem closing_congr {r r' : Report} (h : r.course = r'.course) : closing r = closing r' := by
  simp only [closing, Report.count_eq_of_course h]

/-- The course of a plan names the operations of its entries. -/
theorem map_fst_course (plan : Plan) (snapshot : List Item) (start : σ) :
    (ofPlan policy faults plan snapshot start).report.course.map Prod.fst =
      plan.entries.map Entry.operation := by
  have hentries := (accounts_run policy faults plan.entries ⟨start, snapshot, 0⟩).entries
  rw [← hentries, Report.course, report, List.map_map, List.map_map, List.map_map]
  rfl

end Run

/-! ## Commands -/

/-- A command carried out on a list as it stands, with no write failing. -/
def ofCommand (limits : Limits) (policy : FloorPolicy) (l : ScratchList) (t : Text) :
    Execution ScratchList :=
  ofPlan policy .none (Utterance.compile limits t) l.items l

/-- What is noted of the command from the level `info` upwards. -/
def records (limits : Limits) (policy : FloorPolicy) (l : ScratchList) (t : Text) : List Record :=
  fromInfo (Utterance.journal limits t ++ (ofCommand limits policy l t).journal)

section Commands
variable {limits : Limits} {policy : FloorPolicy} {l : ScratchList} {s t : Text}

/-- No write to a scratch list fails of itself. -/
theorem ofCommand_unfailed (limits : Limits) (policy : FloorPolicy) (l : ScratchList) (t : Text) :
    ∀ o ∈ (ofCommand limits policy l t).report, o.status ≠ .failed := by
  intro o ho
  obtain ⟨event, hevent, rfl⟩ := List.mem_map.mp ho
  obtain ⟨i, hi⟩ := List.mem_iff_getElem?.mp hevent
  rw [show (ofCommand limits policy l t).events[i]? = _ from getElem?_run ..] at hi
  obtain ⟨e, -, rfl⟩ := Option.map_eq_some_iff.mp hi
  obtain ⟨-, hstep⟩ | ⟨effect, -, ⟨store, -, hstep⟩ | ⟨store, fault, hw, -⟩⟩ :=
    step_cases policy .none (run policy .none ⟨l, l.items, 0⟩ _).2 e
  · rw [hstep]
    exact nofun
  · rw [hstep]
    exact nofun
  · cases hw

theorem records_eq (ht : Utterance.normalize t ≠ []) :
    records limits policy l t =
      [Utterance.compiled (Utterance.intent (Utterance.normalize t)).operation
        (Utterance.compile limits t).entryCount (Utterance.normalize t)] ++
      (((ofCommand limits policy l t).report.having .noMatch).map Outcome.missed ++
        [closing (ofCommand limits policy l t).report]) := by
  rw [records, fromInfo_append, Utterance.fromInfo_journal limits ht]
  exact congrArg _ (fromInfo_journal _ _ _ (ofCommand_unfailed limits policy l t))

/-- Commands that begin alike and take the same course are noted alike by the compiler. -/
theorem compiled_congr (hs : 50 < (Utterance.normalize s).length)
    (ht : 50 < (Utterance.normalize t).length)
    (hstart : (Utterance.normalize s).take 50 = (Utterance.normalize t).take 50)
    (hcourse : (ofCommand limits policy l s).report.course =
      (ofCommand limits policy l t).report.course) :
    Utterance.compiled (Utterance.intent (Utterance.normalize s)).operation
        (Utterance.compile limits s).entryCount (Utterance.normalize s) =
      Utterance.compiled (Utterance.intent (Utterance.normalize t)).operation
        (Utterance.compile limits t).entryCount (Utterance.normalize t) := by
  have hread (u : Text) := Utterance.compile_eq_plan limits u
  have hoperations := congrArg (List.map Prod.fst) hcourse
  rw [ofCommand, ofCommand, map_fst_course, map_fst_course, hread s, hread t,
    Utterance.Intent.operation_entries, Utterance.Intent.operation_entries] at hoperations
  rw [hread s, hread t]
  have hcount := congrArg List.length hoperations
  rw [List.length_replicate, List.length_replicate] at hcount
  have hoperation : (Utterance.intent (Utterance.normalize s)).operation =
      (Utterance.intent (Utterance.normalize t)).operation := by
    by_cases hzero : ((Utterance.intent (Utterance.normalize s)).plan limits s).entryCount = 0
    · have hnil {plan : Plan} (h : plan.entryCount = 0) : plan.entries = [] :=
        List.eq_nil_of_length_eq_zero ((Plan.length_entries plan).trans h)
      exact Utterance.operation_congr (Utterance.singleSpaced_normalize s)
        (Utterance.singleSpaced_normalize t) (by decide) hstart (hnil hzero) (hnil (hcount ▸ hzero))
    · rw [hcount] at hoperations hzero
      exact List.replicate_right_injective hzero hoperations
  simp only [Utterance.compiled, hoperation, hcount, Text.preview_congr hs ht hstart]

/-- **What is noted beyond the preview are the names that are missed.**  Let two
commands be longer than the preview in normal form and begin with the same fifty
characters, and let their entries be of the same kinds and meet with the same, one
after the other, when each command is carried out on the list as it stands.  Then
the records from the level `info` upwards are the same exactly if the entries that
match no row have the same names. -/
theorem records_eq_iff (limits : Limits) (policy : FloorPolicy) (l : ScratchList) {s t : Text}
    (hs : 50 < (Utterance.normalize s).length) (ht : 50 < (Utterance.normalize t).length)
    (hstart : (Utterance.normalize s).take 50 = (Utterance.normalize t).take 50)
    (hcourse : (ofCommand limits policy l s).report.course =
      (ofCommand limits policy l t).report.course) :
    records limits policy l s = records limits policy l t ↔
      (ofCommand limits policy l s).report.missedNames =
        (ofCommand limits policy l t).report.missedNames := by
  have hne {u : Text} (hu : 50 < (Utterance.normalize u).length) : Utterance.normalize u ≠ [] :=
    List.ne_nil_of_length_pos (by omega)
  rw [records_eq (hne hs), records_eq (hne ht), compiled_congr hs ht hstart hcourse,
    closing_congr hcourse, List.append_cancel_left_eq, List.append_cancel_right_eq]
  exact Report.map_missed_having_eq_iff hcourse

end Commands

/-- The same cake is missed, and another item found. -/
theorem records_eq_iff_sameCake :
    let l := ScratchList.ofItems [⟨1, "Milk", 2, none, 0⟩, ⟨2, "tea", 1, some "green", 1⟩]
    let s : Text := "Remove chocolate  cake with candles for the birthday party, milk"
    let t : Text := "remove chocolate cake with candles for the birthday PARTY and some tea"
    50 < (Utterance.normalize s).length ∧ 50 < (Utterance.normalize t).length ∧
      (Utterance.normalize s).take 50 = (Utterance.normalize t).take 50 ∧
      (ofCommand .standard .clampToOne l s).report.course = [(.remove, .noMatch), (.remove, .applied)] ∧
      records .standard .clampToOne l s = records .standard .clampToOne l t := by
  intro l s t
  have hs : 50 < (Utterance.normalize s).length := by decide +kernel
  have ht : 50 < (Utterance.normalize t).length := by decide +kernel
  have hstart : (Utterance.normalize s).take 50 = (Utterance.normalize t).take 50 := by
    decide +kernel
  have hcourse : (ofCommand .standard .clampToOne l s).report.course =
      (ofCommand .standard .clampToOne l t).report.course := by decide +kernel
  exact ⟨hs, ht, hstart, by decide +kernel,
    (records_eq_iff .standard .clampToOne l hs ht hstart hcourse).mpr (by decide +kernel)⟩

/-- The names that are missed say for whom, which the preview does not. -/
theorem records_differ_longName :
    let s : Text := "remove chocolate cake with candles for the birthday party on saturday for Alice"
    let t : Text := "remove chocolate cake with candles for the birthday party on saturday for Bob"
    let l := ScratchList.ofItems []
    50 < (Utterance.normalize s).length ∧ 50 < (Utterance.normalize t).length ∧
      (Utterance.normalize s).take 50 = (Utterance.normalize t).take 50 ∧
      (ofCommand .standard .clampToOne l s).report.course =
        (ofCommand .standard .clampToOne l t).report.course ∧
      records .standard .clampToOne l s ≠ records .standard .clampToOne l t := by
  intro s t l
  refine ⟨by decide +kernel, by decide +kernel, by decide +kernel, by decide +kernel, ?_⟩
  intro hsame
  -- one of the names is longer than the other
  have hlengths := congrArg (List.map fun r => r.message.length) hsame
  revert hlengths
  decide +kernel

end Execution
end SpokenList
