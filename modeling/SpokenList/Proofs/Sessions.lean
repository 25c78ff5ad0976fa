import SpokenList.Proofs.FailedWrites

/-! # Sessions of writes

A holder may be written to directly, one call after the other: `Holder.after` is
what the holder is when the calls of a session have been made, and
`Holder.answers` is what came back from each of them.

Where failed writes change nothing (`Holder.FailsCleanly`), a session comes to
what the calls that succeed come to without the others
(`Holder.after_succeeding`).  On a ledger each call is committed whole or refused
whole, and the two cases are told apart by its fault and its numbers
(`Ledger.write_of_accepts`, `Ledger.write_of_not_accepts`).
-/
namespace SpokenList

namespace Holder

/-- A write that is asked of a holder, and the fault that strikes it, if any. -/
structure Call where
  write : Write
  fault : Option Fault
  deriving DecidableEq, Repr

section Session
variable {σ : Type} [Holder σ] {settled : σ → Prop} {s : σ} {call : Call} {calls : List Call}

/-- The holder when the calls have been made, one after the other. -/
def after (s : σ) : List Call → σ
  | [] => s
  | call :: rest => after (write call.write call.fault s).1 rest

/-- What comes back from each of the calls: the fault that the caller sees, if any. -/
def answers (s : σ) : List Call → List (Option Fault)
  | [] => []
  | call :: rest =>
    (write call.write call.fault s).2 :: answers (write call.write call.fault s).1 rest

/-- The calls that succeed, now without any fault. -/
def succeeding (s : σ) (calls : List Call) : List Call :=
  ((calls.zip (answers s calls)).filter fun x => x.2.isNone).map fun x => ⟨x.1.write, none⟩

theorem after_cons (s : σ) (call : Call) (rest : List Call) :
    after s (call :: rest) = after (write call.write call.fault s).1 rest := rfl

theorem after_append (s : σ) (before later : List Call) :
    after s (before ++ later) = after (after s before) later := by
  induction before generalizing s with
  | nil => rfl
  | cons call rest ih => rw [List.cons_append, after_cons, after_cons, ih]

theorem answers_cons (s : σ) (call : Call) (rest : List Call) :
    answers s (call :: rest) = (write call.write call.fault s).2 ::
      answers (write call.write call.fault s).1 rest := rfl

theorem succeeding_cons_of_done (h : (write call.write call.fault s).2 = none)
    (rest : List Call) :
    succeeding s (call :: rest) =
      ⟨call.write, none⟩ :: succeeding (write call.write call.fault s).1 rest := by
  rw [succeeding, answers_cons, List.zip_cons_cons, List.filter_cons_of_pos (by rw [h]; rfl)]
  rfl

theorem succeeding_cons_of_fault (h : (write call.write call.fault s).2 ≠ none)
    (rest : List Call) :
    succeeding s (call :: rest) = succeeding (write call.write call.fault s).1 rest := by
  have hsome : (write call.write call.fault s).2.isNone = false := by
    rw [Option.isNone_eq_false_iff, Option.isSome_iff_ne_none]
    exact h
  rw [succeeding, answers_cons, List.zip_cons_cons, List.filter_cons_of_neg (by simp [hsome])]
  rfl

theorem FailsCleanly.settled_after (hσ : FailsCleanly σ settled) (hs : settled s)
    (calls : List Call) : settled (after s calls) := by
  induction calls generalizing s with
  | nil => exact hs
  | cons call rest ih => exact ih (hσ.settled_write call.write call.fault s hs)

/-- A call that fails makes no difference to any call after it. -/
theorem after_without_failed (hσ : FailsCleanly σ settled) (hs : settled s)
    (before later : List Call)
    (h : (write call.write call.fault (after s before)).2 ≠ none) :
    after s (before ++ call :: later) = after s (before ++ later) := by
  rw [after_append, after_append, after_cons,
    hσ.unchanged call.write call.fault _ (hσ.settled_after hs before) h]

/-- **A session comes to what its succeeding calls come to**, and without the
others all of them succeed again. -/
theorem after_succeeding (hσ : FailsCleanly σ settled) (hs : settled s) (calls : List Call) :
    after s (succeeding s calls) = after s calls ∧
      ∀ answer ∈ answers s (succeeding s calls), answer = none := by
  induction calls generalizing s with
  | nil => exact ⟨rfl, fun answer h => by cases h⟩
  | cons call rest ih =>
    have hnext := hσ.settled_write call.write call.fault s hs
    obtain ⟨hafter, hanswers⟩ := ih hnext
    by_cases hdone : (write call.write call.fault s).2 = none
    · have hfault : call.fault = none := hσ.unstruck call.write call.fault s hs hdone
      have hsame : write call.write none s = write call.write call.fault s := by rw [hfault]
      rw [succeeding_cons_of_done hdone, after_cons, after_cons, answers_cons]
      dsimp only
      rw [hsame]
      refine ⟨hafter, ?_⟩
      intro answer h
      rcases List.mem_cons.mp h with rfl | h
      · exact hdone
      · exact hanswers answer h
    · -- the call has changed nothing, so the calls after it start where it started
      have hsame : (write call.write call.fault s).1 = s :=
        hσ.unchanged call.write call.fault s hs hdone
      rw [succeeding_cons_of_fault hdone, after_cons]
      rw [hsame] at hafter hanswers ⊢
      exact ⟨hafter, hanswers⟩

end Session
end Holder

namespace Ledger

variable {l : Ledger} {call : Holder.Call}

/-- An integer that a signed word of 64 bits can hold. -/
def InWord (n : Int) : Prop := -9223372036854775808 ≤ n ∧ n ≤ 9223372036854775807

instance (n : Int) : Decidable (InWord n) := inferInstanceAs (Decidable (_ ∧ _))

/-- The commit of the call is not struck, and the call does not ask for a number beyond
a word: neither for such a quantity of the row that the table finds, nor for such a
quantity or place of a new row. -/
def Accepts (l : Ledger) (call : Holder.Call) : Prop :=
  call.fault = none ∧
    match call.write, l.findRow? call.write.name with
    | .adjust _ delta, some row => InWord (row.quantity + delta)
    | .add _ quantity _, some row => InWord (row.quantity + quantity)
    | .add _ quantity _, none => InWord quantity ∧ InWord (Item.nextOrder l.rows)
    | _, _ => True

/-- Only the numbers of the change tell, that is, those that a commit looks at. -/
theorem accepts_iff : l.Accepts call ↔
    call.fault = none ∧ ∀ change ∈ l.change? call.write, change.fits = true := by
  obtain ⟨w, fault⟩ := call
  refine and_congr_right fun _ => ?_
  cases w with
  | adjust name delta =>
    simp only [change?, Write.name]
    cases l.findRow? name with
    | none => simp
    | some row => simp [Change.fits, Item.adjusted, fitsWord_iff, InWord]
  | remove name =>
    simp only [change?]
    cases l.findRow? name <;> simp [Change.fits]
  | add name quantity note =>
    simp only [change?, Write.name]
    cases l.findRow? name with
    | none => simp [Change.fits, fitsWord_iff, InWord]
    | some row => simp [Change.fits, Item.increased, fitsWord_iff, InWord]

instance (l : Ledger) (call : Holder.Call) : Decidable (l.Accepts call) :=
  decidable_of_iff _ accepts_iff.symm

/-- The ledger with the whole change written that the write stands for. -/
def written (l : Ledger) (w : Write) : Ledger := ((l.change? w).elim l l.apply).rollBack

theorem pending_stage (hl : l.Settled) (w : Write) :
    (l.stage w).pending = (l.change? w).toList := by
  show l.pending ++ (l.change? w).toList = _
  rw [show l.pending = [] from hl, List.nil_append]

/-- What waits makes no difference to what a change does to the table. -/
theorem rollBack_apply_stage (l : Ledger) (w : Write) (change : Change) :
    ((l.stage w).apply change).rollBack = (l.apply change).rollBack := by
  cases change <;> rfl

theorem write_of_accepts (hl : l.Settled) (h : l.Accepts call) :
    l.write call.write call.fault = (l.written call.write, none) := by
  obtain ⟨hfault, hfits⟩ := accepts_iff.mp h
  have hall : (l.stage call.write).pending.all Change.fits = true := by
    rw [pending_stage hl, List.all_eq_true]
    exact fun change hchange => hfits change (Option.mem_toList.mp hchange)
  have hwritten : ((l.stage call.write).pending.foldl apply (l.stage call.write)).rollBack =
      l.written call.write := by
    rw [pending_stage hl, written]
    cases l.change? call.write with
    | none => rfl
    | some change => exact rollBack_apply_stage l call.write change
  have hcommit : (l.stage call.write).commit? call.fault = some (l.written call.write) := by
    simp only [commit?, hfault, hall, Option.isNone_none, Bool.and_self, if_true, hwritten]
  rw [write, hcommit]

theorem write_of_not_accepts (hl : l.Settled) (h : ¬ l.Accepts call) :
    l.write call.write call.fault = (l, some (refusal call.write)) := by
  have hcommit : (l.stage call.write).commit? call.fault = none := by
    refine if_neg fun hok => h (accepts_iff.mpr ?_)
    obtain ⟨hfault, hall⟩ := Bool.and_eq_true_iff.mp hok
    rw [pending_stage hl, List.all_eq_true] at hall
    exact ⟨Option.isNone_iff_eq_none.mp hfault,
      fun change hchange => hall change (Option.mem_toList.mpr hchange)⟩
  rw [write, hcommit]
  show (l.rollBack, some (refusal call.write)) = _
  rw [hl.rollBack]

end Ledger
end SpokenList
