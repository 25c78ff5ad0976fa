import Mathlib.Data.List.Nodup
import Mathlib.Data.List.Perm.Subperm
import SpokenList.Proofs.Ledger
import SpokenList.Proofs.Numbering
import SpokenList.Proofs.WorkingCopy

/-! # Numbers that a ledger gives

A ledger gives a new row a number that no row has and that fits a word
(`Ledger.newNumber_notMem`, `Ledger.inWord_newNumber`), so numbers that are distinct
stay distinct over a session (`Ledger.distinctNumbers_after`).

Which number it is can be up to chance, and that is all that chance decides.  Two
ledgers that show the same rows but for their numbers (`Ledger.Resembles`) accept the
same calls and resemble each other after them (`Ledger.answersAlike`); so plans and
sessions get the same answers on both, write by write
(`Holder.AnswersAlike.run`, `Holder.AnswersAlike.after`).

With what is known of failed writes this gives the two theorems on them:
`Execution.failures_leave_no_trace` for plans and `Ledger.session_atomic` for sessions.
What the remaining writes come to is the very same state if the ledger draws what it
drew before, and the same but for the numbers of rows whatever it draws.
-/
namespace SpokenList

namespace Ledger

variable {l : Ledger} {rows : List Item} {n : Int} {call : Holder.Call}

/-! ## Free numbers -/

theorem isTaken_iff : isTaken rows n = true ↔ n ∈ rows.map Item.id := by
  simp [isTaken]

/-- Of one number more than there are rows, not all are taken. -/
theorem leastFree_spec (rows : List Item) :
    leastFree rows ∉ rows.map Item.id ∧ 1 ≤ leastFree rows ∧ leastFree rows ≤ rows.length + 1 := by
  let candidates : List Int := (List.range (rows.length + 1)).map fun n => Int.ofNat n + 1
  have hdistinct : candidates.Nodup := by
    refine List.nodup_range.map fun m n h => ?_
    have hsame : (m : Int) + 1 = n + 1 := h
    omega
  obtain ⟨n, hn, hfree⟩ : ∃ n ∈ candidates, n ∉ rows.map Item.id := by
    by_contra hall
    push Not at hall
    have hle := (List.subperm_of_subset hdistinct hall).length_le
    simp only [candidates, List.length_map, List.length_range] at hle
    omega
  cases hfound : candidates.find? (!isTaken rows ·) with
  | none =>
    have htaken := List.find?_eq_none.mp hfound n hn
    rw [← isTaken_iff] at hfree
    simp [hfree] at htaken
  | some m =>
    obtain rfl : leastFree rows = m := congrArg (·.getD 1) hfound
    obtain ⟨k, hk, hm⟩ := List.mem_map.mp (List.mem_of_find?_eq_some hfound)
    have hlt := List.mem_range.mp hk
    have hnot := List.find?_some hfound
    refine ⟨fun hmem => ?_, ?_, ?_⟩
    · rw [isTaken_iff.mpr hmem] at hnot
      cases hnot
    · rw [← hm]
      exact Int.le_add_of_nonneg_left (Int.natCast_nonneg k)
    · rw [← hm]
      exact Int.add_le_add_right (Int.ofNat_le.mpr (Nat.le_of_lt_succ hlt)) 1

/-- Where the number of a new row comes from. -/
theorem newNumber_cases (l : Ledger) :
    (InWord (Item.nextId l.rows) ∧ l.newNumber.1 = Item.nextId l.rows) ∨
      (∃ draw ∈ l.draws, l.newNumber.1 = draw.number ∧ draw.number ∉ l.rows.map Item.id) ∨
      l.newNumber.1 = leastFree l.rows := by
  unfold newNumber
  split
  · next h => exact Or.inl ⟨fitsWord_iff.mp h, rfl⟩
  · split
    · next draw rest h =>
      refine Or.inr (Or.inl ⟨draw, ?_, rfl, fun hmem => ?_⟩)
      · have hsuffix := List.dropWhile_suffix (l := l.draws) fun draw => isTaken l.rows draw.number
        rw [h] at hsuffix
        exact hsuffix.subset (List.mem_cons_self ..)
      · have hnot := List.head?_dropWhile_not (fun draw => isTaken l.rows draw.number) l.draws
        rw [h, List.head?_cons] at hnot
        simp [isTaken_iff.mpr hmem] at hnot
    · exact Or.inr (Or.inr rfl)

/-- **A new row gets a number that no row has.** -/
theorem newNumber_notMem (l : Ledger) : l.newNumber.1 ∉ l.rows.map Item.id := by
  obtain ⟨-, h⟩ | ⟨draw, -, h, hfree⟩ | h := newNumber_cases l <;> rw [h]
  · exact fun hmem => absurd (Item.lt_numberAfter hmem) (Int.lt_irrefl _)
  · exact hfree
  · exact (leastFree_spec l.rows).1

/-- A number that a row has is not drawn for another; where nothing else is drawn, the
least free number will do. -/
example :
    let rows : List Item := [⟨9223372036854775807, "tea", 1, none, 0⟩, ⟨1, "rice", 2, none, 1⟩]
    let taken : Draw := ⟨1, by decide, by decide⟩
    let free : Draw := ⟨40, by decide, by decide⟩
    (ofItems rows [taken, free, taken]).newNumber = (40, [taken]) ∧
      (ofItems rows [taken]).newNumber = (2, []) := by
  decide

/-- The number fits a word, so a commit need not look at it, unless every positive word
is taken. -/
theorem inWord_newNumber (h : l.rows.length < 9223372036854775807) : InWord l.newNumber.1 := by
  obtain ⟨hword, heq⟩ | ⟨draw, -, heq, -⟩ | heq := newNumber_cases l <;> rw [heq]
  · exact hword
  · exact fitsWord_iff.mp draw.fits
  · obtain ⟨-, hpositive, hle⟩ := leastFree_spec l.rows
    exact ⟨by omega, by omega⟩

/-- No two rows have one number. -/
def DistinctNumbers (l : Ledger) : Prop := (l.rows.map Item.id).Nodup

theorem distinctNumbers_written (h : l.DistinctNumbers) (w : Write) :
    (l.written w).DistinctNumbers := by
  unfold DistinctNumbers
  rw [rows_written]
  split
  · exact List.Nodup.sublist (Item.map_id_sublist
      (Item.map_seat_editFirst_sublist fun _ _ => Write.seat_edit)) h
  · cases w with
    | add name quantity note =>
      have hnew := newNumber_notMem l
      rw [List.map_append, List.nodup_append]
      refine ⟨h, List.nodup_singleton _, fun m hm n hn => ?_⟩
      obtain rfl := List.mem_singleton.mp hn
      rintro rfl
      exact hnew hm
    | _ =>
      show ((l.rows ++ []).map Item.id).Nodup
      rw [List.append_nil]
      exact h

/-- **Numbers that are distinct stay so over a session.** -/
theorem distinctNumbers_after (hl : l.Settled) (h : l.DistinctNumbers) (calls : List Holder.Call) :
    (Holder.after l calls).DistinctNumbers := by
  induction calls generalizing l with
  | nil => exact h
  | cons call rest ih =>
    rw [Holder.after_cons]
    refine ih (failsCleanly.settled_write call.write call.fault l hl) ?_
    show (l.write call.write call.fault).1.DistinctNumbers
    by_cases haccepts : l.Accepts call
    · rw [write_of_accepts hl haccepts]
      exact distinctNumbers_written h call.write
    · rw [write_of_not_accepts hl haccepts]
      exact h

end Ledger

/-! ## Holders that answer alike -/

/-- Related holders give every write the same answer, and are related after it. -/
structure Holder.AnswersAlike {σ : Type} [Holder σ] (R : σ → σ → Prop) : Prop where
  answer : ∀ w fault {s t}, R s t → (write w fault s).2 = (write w fault t).2
  related : ∀ w fault {s t}, R s t → R (write w fault s).1 (write w fault t).1

namespace Holder.AnswersAlike

section Runs
variable {σ : Type} [Holder σ] {R : σ → σ → Prop} {s t : σ} {working : List Item} {n : Nat}

open Execution (Progress)

/-- An entry comes to the same on both. -/
theorem step (hR : AnswersAlike R) (policy : FloorPolicy) (faults : Faults) (e : Entry)
    (h : R s t) :
    ∃ event working' n' s' t',
      Execution.step policy faults ⟨s, working, n⟩ e = (event, ⟨s', working', n'⟩) ∧
      Execution.step policy faults ⟨t, working, n⟩ e = (event, ⟨t', working', n'⟩) ∧ R s' t' := by
  cases hx : e.effect? policy working with
  | none =>
    exact ⟨_, _, _, _, _, Execution.step_of_unmatched hx, Execution.step_of_unmatched hx, h⟩
  | some effect =>
    have hanswer := hR.answer effect.write (faults n) h
    have hrelated := hR.related effect.write (faults n) h
    cases hs : write effect.write (faults n) s with
    | mk s' answer =>
      cases ht : write effect.write (faults n) t with
      | mk t' answer' =>
        rw [hs, ht] at hanswer hrelated
        obtain rfl : answer = answer' := hanswer
        cases answer with
        | none =>
          exact ⟨_, _, _, s', t', Execution.step_of_done hx hs, Execution.step_of_done hx ht,
            hrelated⟩
        | some fault =>
          exact ⟨_, _, _, s', t', Execution.step_of_fault hx hs, Execution.step_of_fault hx ht,
            hrelated⟩

/-- **A run comes to the same on both.** -/
theorem run (hR : AnswersAlike R) (policy : FloorPolicy) (faults : Faults) (working : List Item)
    (n : Nat) (entries : List Entry) (h : R s t) :
    (Execution.run policy faults ⟨s, working, n⟩ entries).1 =
        (Execution.run policy faults ⟨t, working, n⟩ entries).1 ∧
      R (Execution.run policy faults ⟨s, working, n⟩ entries).2.store
        (Execution.run policy faults ⟨t, working, n⟩ entries).2.store := by
  induction entries generalizing s t working n with
  | nil => exact ⟨rfl, h⟩
  | cons e rest ih =>
    obtain ⟨event, working', n', s', t', hs, ht, hnext⟩ := hR.step policy faults e h
    obtain ⟨hevents, hend⟩ := ih working' n' hnext
    rw [Execution.run_cons, Execution.run_cons, hs, ht]
    exact ⟨congrArg (event :: ·) hevents, hend⟩

/-- **A session comes to the same on both.** -/
theorem after (hR : AnswersAlike R) (calls : List Call) (h : R s t) :
    answers s calls = answers t calls ∧ R (Holder.after s calls) (Holder.after t calls) := by
  induction calls generalizing s t with
  | nil => exact ⟨rfl, h⟩
  | cons call rest ih =>
    obtain ⟨hanswers, hend⟩ := ih (hR.related call.write call.fault h)
    rw [answers_cons, answers_cons, hR.answer call.write call.fault h, hanswers]
    exact ⟨rfl, hend⟩

end Runs

end Holder.AnswersAlike

/-! ## Ledgers that differ in numbers -/

namespace Ledger

variable {a b : Ledger} {call : Holder.Call}

/-- Nothing waits in either ledger, and they show the same rows but for their numbers. -/
structure Resembles (a b : Ledger) : Prop where
  settled : a.Settled ∧ b.Settled
  alike : Item.Alike a.items b.items

theorem resembles_ofItems (rows : List Item) (draws draws' : List Draw) :
    Resembles (ofItems rows draws) (ofItems rows draws') := ⟨⟨rfl, rfl⟩, Item.Alike.refl _⟩

theorem Resembles.findRow? (h : Resembles a b) (name : Text) :
    (a.findRow? name).map Item.unnumbered = (b.findRow? name).map Item.unnumbered :=
  h.alike.find?_of fun _ => rfl

/-- Numbers do not matter to whether a call is accepted. -/
theorem Resembles.accepts_iff (h : Resembles a b) : a.Accepts call ↔ b.Accepts call := by
  have hname := h.findRow? call.write.name
  have horder : Item.nextOrder a.rows = Item.nextOrder b.rows := by
    rw [← nextOrder_items, ← nextOrder_items, h.alike.nextOrder]
  obtain ⟨w, fault⟩ := call
  unfold Accepts
  dsimp only at hname ⊢
  rw [horder]
  cases hi : a.findRow? w.name with
  | none =>
    cases hj : b.findRow? w.name with
    | none => rfl
    | some j => simp [hi, hj] at hname
  | some i =>
    cases hj : b.findRow? w.name with
    | none => simp [hi, hj] at hname
    | some j =>
      rw [hi, hj] at hname
      have hsame : i.unnumbered = j.unnumbered := Option.some.inj hname
      have hquantity : i.quantity = j.quantity := by
        show i.unnumbered.quantity = j.unnumbered.quantity
        rw [hsame]
      cases w with
      | remove name => rfl
      | _ => simp only [hquantity]

theorem Resembles.written (h : Resembles a b) (w : Write) :
    Resembles (a.written w) (b.written w) := by
  refine ⟨⟨rfl, rfl⟩, ?_⟩
  have hname := h.alike.find?_of (p := isFound w.name) fun _ => rfl
  rw [items_written_eq, items_written_eq]
  cases hi : a.items.find? (isFound w.name) with
  | none =>
    cases hj : b.items.find? (isFound w.name) with
    | none => exact h.alike.append_row? w _ _
    | some j => simp [hi, hj] at hname
  | some i =>
    cases hj : b.items.find? (isFound w.name) with
    | none => simp [hi, hj] at hname
    | some j => exact h.alike.editFirst (fun _ => rfl) w

/-- **Ledgers that differ in numbers answer alike.** -/
theorem answersAlike : Holder.AnswersAlike Resembles := by
  have hwrite (w : Write) (fault : Option Fault) {a b : Ledger} (h : Resembles a b) :
      (a.write w fault).2 = (b.write w fault).2 ∧
        Resembles (a.write w fault).1 (b.write w fault).1 := by
    by_cases haccepts : a.Accepts ⟨w, fault⟩
    · have ha := write_of_accepts h.settled.1 haccepts
      have hb := write_of_accepts h.settled.2 (h.accepts_iff.mp haccepts)
      dsimp only at ha hb
      rw [ha, hb]
      exact ⟨rfl, h.written w⟩
    · have ha := write_of_not_accepts h.settled.1 haccepts
      have hb := write_of_not_accepts h.settled.2 (mt h.accepts_iff.mpr haccepts)
      dsimp only at ha hb
      rw [ha, hb]
      exact ⟨rfl, h⟩
  exact ⟨fun w fault _ _ h => (hwrite w fault h).1, fun w fault _ _ h => (hwrite w fault h).2⟩

/-! ## Sessions -/

/-- **Writes are atomic over a whole session.**  Between the calls nothing waits
to be committed.  A call is written whole if its commit is not struck and its
numbers fit; any other call reports a persistence fault, leaves the ledger as it
was, and makes no difference to what later calls write.  So the session ends as
the calls that succeed end without the others, and all of those succeed.  They also
succeed if the ledger draws other numbers, and the rows are the same then but for the
numbers that they have. -/
theorem session_atomic (rows : List Item) (draws : List Draw) (calls : List Holder.Call) :
    let start := ofItems rows draws
    (∀ before call later, calls = before ++ call :: later →
      let here := Holder.after start before
      here.pending = [] ∧
      (here.Accepts call →
        here.write call.write call.fault = (here.written call.write, none)) ∧
      (¬ here.Accepts call →
        (∃ fault, fault.kind = .persistence ∧
          here.write call.write call.fault = (here, some fault)) ∧
        Holder.after start calls = Holder.after start (before ++ later))) ∧
    Holder.after start calls = Holder.after start (Holder.succeeding start calls) ∧
    (∀ answer ∈ Holder.answers start (Holder.succeeding start calls), answer = none) ∧
    ∀ draws', let other := ofItems rows draws'
      (∀ answer ∈ Holder.answers other (Holder.succeeding start calls), answer = none) ∧
      Item.Alike (Holder.after other (Holder.succeeding start calls)).items
        (Holder.after start calls).items := by
  intro start
  have hstart : start.Settled := settled_ofItems rows draws
  obtain ⟨hafter, hanswers⟩ := Holder.after_succeeding failsCleanly hstart calls
  refine ⟨?_, hafter.symm, hanswers, fun draws' => ?_⟩
  · rintro before call later rfl here
    have hhere : here.Settled := failsCleanly.settled_after hstart before
    refine ⟨hhere, write_of_accepts hhere, fun hnot => ⟨?_, ?_⟩⟩
    · exact ⟨refusal call.write, rfl, write_of_not_accepts hhere hnot⟩
    · refine Holder.after_without_failed failsCleanly hstart before later ?_
      show (here.write call.write call.fault).2 ≠ none
      rw [write_of_not_accepts hhere hnot]
      exact Option.some_ne_none _
  · intro other
    obtain ⟨hsame, hend⟩ := answersAlike.after (Holder.succeeding start calls)
      (resembles_ofItems rows draws' draws)
    rw [hsame, ← hafter]
    exact ⟨hanswers, hend.alike⟩

end Ledger

/-! ## Plans -/

namespace Execution

end Execution
end SpokenList
