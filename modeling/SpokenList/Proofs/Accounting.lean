import Mathlib.Data.List.Forall2
import SpokenList.Proofs.OneName
import SpokenList.Proofs.Sessions
import SpokenList.Proofs.Standing

/-! # Every entry is accounted for

Carrying out a plan reports one outcome per entry and asks for one write per
entry that has something to do (`Execution.entries_accounted`).  The writes are
read as a session with the holder (`Execution.calls`): the answers of the session
say which outcomes failed and why, and the session leaves the holder as the
execution does.

Of one entry this is `Execution.accounts_step`.  Over a run the outcomes and the
writes are kept apart, since an entry without a match has no write, and so the
run is followed with a count of the writes attempted so far
(`Execution.accounts_run`).  Whether an entry has a match is a matter of the
working copy that its predecessors leave (`Execution.progressAt`).
-/
namespace SpokenList

namespace Entry

variable {policy : FloorPolicy} {working : List Item} {e : Entry} {effect : Effect}

/-- An entry has nothing to do when it needs a row and none matches. -/
theorem effect?_eq_none_iff_forall :
    e.effect? policy working = none ↔
      e.operation ≠ .add ∧ ∀ row ∈ working, row.key ≠ Text.matchKey e.name := by
  rw [effect?_eq_none_iff, Item.withKey?_eq_none_iff, List.mem_map]
  simp only [not_exists, not_and, key]

/-- The write of an entry is about the item of the entry. -/
theorem matchKey_write (h : e.effect? policy working = some effect) :
    Text.matchKey effect.write.name = Text.matchKey e.name := by
  cases e with
  | adjust e =>
    obtain ⟨row, hrow, rfl⟩ := Option.map_eq_some_iff.mp h
    unfold Effect.ofAdjust
    dsimp only
    split
    · exact Item.key_of_find? hrow
    · exact Item.key_of_find? hrow
  | remove e =>
    obtain ⟨row, hrow, rfl⟩ := Option.map_eq_some_iff.mp h
    exact Item.key_of_find? hrow
  | add e =>
    obtain rfl : Effect.ofAdd working e (Item.find? working e.name) = effect := Option.some.inj h
    cases hrow : Item.find? working e.name with
    | some row => exact Item.key_of_find? hrow
    | none => exact Text.matchKey_strip e.name

end Entry

namespace Execution

variable {σ : Type} [Holder σ] {policy : FloorPolicy} {faults : Faults} {p : Progress σ} {e : Entry}

/-! ## One entry -/

/-- What came back from the write of an entry, as its outcome tells it: the
outcome failed if there was a fault, and then says which. -/
def Tells (o : Outcome) (answer : Option Fault) : Prop :=
  (o.status = .failed ↔ answer ≠ none) ∧ o.error = answer.map Fault.text

/-- Only what failed has an error, which says something. -/
def ErrorFits (o : Outcome) : Prop :=
  if o.status = .failed then ∃ text ∈ o.error, text ≠ [] else o.error = none

theorem Tells.errorFits {o : Outcome} {answer : Option Fault} (h : Tells o answer) :
    ErrorFits o := by
  obtain ⟨hfailed, herror⟩ := h
  unfold ErrorFits
  cases answer with
  | none => rw [if_neg fun hstatus => hfailed.mp hstatus rfl, herror, Option.map_none]
  | some fault =>
    rw [if_pos (hfailed.mpr (Option.some_ne_none fault)), herror]
    exact ⟨fault.text, rfl, fault.text_ne_nil⟩

/-- An entry that does nothing leaves all as it was; of any other, the write is
one for the item, and the outcome tells what came back. -/
theorem accounts_step (policy : FloorPolicy) (faults : Faults) (p : Progress σ) (e : Entry) :
    let event := (step policy faults p e).1
    let p' := (step policy faults p e).2
    event.outcome.entry = e ∧
      ((e.effect? policy p.working = none ∧ event.outcome.status = .noMatch ∧
          event.outcome.error = none ∧ event.write = none ∧ p' = p) ∨
        ∃ w, e.effect? policy p.working ≠ none ∧ event.outcome.status ≠ .noMatch ∧
          event.write = some w ∧ Text.matchKey w.name = Text.matchKey e.name ∧
          Tells event.outcome (Holder.write w (faults p.attempts) p.store).2 ∧
          p'.store = (Holder.write w (faults p.attempts) p.store).1 ∧
          p'.attempts = p.attempts + 1) := by
  obtain ⟨hx, hstep⟩ | ⟨x, hx, ⟨store, hw, hstep⟩ | ⟨store, fault, hw, hstep⟩⟩ :=
    step_cases policy faults p e
  · rw [hstep]
    exact ⟨rfl, Or.inl ⟨hx, rfl, rfl, rfl, rfl⟩⟩
  · rw [hstep]
    refine ⟨rfl, Or.inr ⟨x.write, by simp [hx], nofun, rfl, Entry.matchKey_write hx, ?_, ?_, rfl⟩⟩
    · rw [hw]
      exact ⟨iff_of_false nofun (by simp), rfl⟩
    · rw [hw]
  · rw [hstep]
    refine ⟨rfl, Or.inr ⟨x.write, by simp [hx], nofun, rfl, Entry.matchKey_write hx, ?_, ?_, rfl⟩⟩
    · rw [hw]
      exact ⟨iff_of_true rfl (by simp), rfl⟩
    · rw [hw]

/-! ## A run -/

/-- The outcomes of the entries that had something to do. -/
def attempted (r : Report) : Report := r.filter fun o => o.status != .noMatch

/-- Writes as calls, each with the fault that strikes it; `n` writes came before. -/
def callsFrom (faults : Faults) (n : Nat) (ws : List Write) : List Holder.Call :=
  (ws.zipIdx n).map fun x => ⟨x.1, faults x.2⟩

theorem callsFrom_cons (n : Nat) (w : Write) (ws : List Write) :
    callsFrom faults n (w :: ws) = ⟨w, faults n⟩ :: callsFrom faults (n + 1) ws := rfl

/-- What a run reports and attempts from `p` on, and the session that its writes
are. -/
structure Accounts (faults : Faults) (p : Progress σ) (entries : List Entry)
    (events : List Event) (p' : Progress σ) : Prop where
  /-- Each entry has its outcome. -/
  entries : events.map (fun event => event.outcome.entry) = entries
  /-- The writes are those of the attempted entries, for the items of these. -/
  writes : List.Forall₂ (fun o w => Text.matchKey w.name = Text.matchKey o.entry.name)
    (attempted (events.map Event.outcome)) (events.filterMap Event.write)
  /-- Their outcomes tell what came back. -/
  answers : List.Forall₂ Tells (attempted (events.map Event.outcome))
    (Holder.answers p.store (callsFrom faults p.attempts (events.filterMap Event.write)))
  /-- The writes are all that the holder sees. -/
  store : p'.store =
    Holder.after p.store (callsFrom faults p.attempts (events.filterMap Event.write))
  errors : ∀ event ∈ events, ErrorFits event.outcome

variable {entries : List Entry} {events : List Event} {event : Event} {w : Write}
  {p₁ p' : Progress σ}

theorem attempted_cons (o : Outcome) (r : Report) :
    attempted (o :: r) = if o.status = .noMatch then attempted r else o :: attempted r := by
  by_cases h : o.status = .noMatch <;> simp [attempted, h]

/-- An entry without a match may come first. -/
theorem Accounts.cons_unmatched (h : Accounts faults p entries events p')
    (hentry : event.outcome.entry = e) (hstatus : event.outcome.status = .noMatch)
    (herror : event.outcome.error = none) (hwrite : event.write = none) :
    Accounts faults p (e :: entries) (event :: events) p' where
  entries := by rw [List.map_cons, hentry, h.entries]
  writes := by
    rw [List.map_cons, attempted_cons, if_pos hstatus, List.filterMap_cons_none hwrite]
    exact h.writes
  answers := by
    rw [List.map_cons, attempted_cons, if_pos hstatus, List.filterMap_cons_none hwrite]
    exact h.answers
  store := by
    rw [List.filterMap_cons_none hwrite]
    exact h.store
  errors := by
    refine List.forall_mem_cons.mpr ⟨?_, h.errors⟩
    rw [ErrorFits, if_neg (by simp [hstatus]), herror]

/-- An entry whose write was attempted may come first. -/
theorem Accounts.cons_attempted (h : Accounts faults p₁ entries events p')
    (hentry : event.outcome.entry = e) (hstatus : event.outcome.status ≠ .noMatch)
    (hwrite : event.write = some w) (hname : Text.matchKey w.name = Text.matchKey e.name)
    (htells : Tells event.outcome (Holder.write w (faults p.attempts) p.store).2)
    (hstore : p₁.store = (Holder.write w (faults p.attempts) p.store).1)
    (hattempts : p₁.attempts = p.attempts + 1) :
    Accounts faults p (e :: entries) (event :: events) p' where
  entries := by rw [List.map_cons, hentry, h.entries]
  writes := by
    rw [List.map_cons, attempted_cons, if_neg hstatus, List.filterMap_cons_some hwrite]
    exact List.Forall₂.cons (by rw [hname, hentry]) h.writes
  answers := by
    rw [List.map_cons, attempted_cons, if_neg hstatus, List.filterMap_cons_some hwrite,
      callsFrom_cons, Holder.answers_cons, ← hstore, ← hattempts]
    exact List.Forall₂.cons htells h.answers
  store := by
    rw [List.filterMap_cons_some hwrite, callsFrom_cons, Holder.after_cons, ← hstore, ← hattempts]
    exact h.store
  errors := List.forall_mem_cons.mpr ⟨htells.errorFits, h.errors⟩

/-- **A run accounts for its entries**, from wherever it starts. -/
theorem accounts_run (policy : FloorPolicy) (faults : Faults) (entries : List Entry)
    (p : Progress σ) :
    Accounts faults p entries (run policy faults p entries).1 (run policy faults p entries).2 := by
  induction entries generalizing p with
  | nil => exact ⟨rfl, List.Forall₂.nil, List.Forall₂.nil, rfl, nofun⟩
  | cons e rest ih =>
    rw [run_cons]
    have hrest := ih (step policy faults p e).2
    obtain ⟨hentry, ⟨_, hstatus, herror, hwrite, hsame⟩ | ⟨w, _, hstatus, hwrite, hname, htells,
      hstore, hattempts⟩⟩ := accounts_step policy faults p e
    · rw [hsame] at hrest ⊢
      exact hrest.cons_unmatched hentry hstatus herror hwrite
    · exact hrest.cons_attempted hentry hstatus hwrite hname htells hstore hattempts

/-! ## The working copy of an entry -/

/-- How far the plan has been carried out when the entry at place `i` comes. -/
def progressAt (policy : FloorPolicy) (faults : Faults) (plan : Plan) (snapshot : List Item)
    (start : σ) (i : Nat) : Progress σ :=
  (run policy faults ⟨start, snapshot, 0⟩ (plan.entries.take i)).2

/-- The event at a place is that of the entry there, when those before it have been
carried out. -/
theorem getElem?_run (policy : FloorPolicy) (faults : Faults) (p : Progress σ)
    (entries : List Entry) (i : Nat) :
    (run policy faults p entries).1[i]? = entries[i]?.map fun e =>
      (step policy faults (run policy faults p (entries.take i)).2 e).1 := by
  induction entries generalizing p i with
  | nil => rfl
  | cons e rest ih =>
    cases i with
    | zero => rfl
    | succ i => exact ih (step policy faults p e).2 i

theorem noMatch_step_iff :
    (step policy faults p e).1.outcome.status = .noMatch ↔ e.effect? policy p.working = none := by
  obtain ⟨_, ⟨hnone, hstatus, _⟩ | ⟨_, hsome, hstatus, _⟩⟩ := accounts_step policy faults p e
  · exact iff_of_true hstatus hnone
  · exact iff_of_false hstatus hsome

/-! ## The whole plan -/

/-- The writes of an execution as a session with its holder. -/
def calls (faults : Faults) (x : Execution σ) : List Holder.Call := callsFrom faults 0 x.writes

/-- **Every entry is accounted for, and written at most once**, whatever the holder
and whatever rows the plan is matched against.  There is one outcome for each entry,
the adjustments first, then the removals, then the additions.  The writes are, in
order, one for each outcome other than `noMatch`, for the item of its entry; they
are all that the holder sees.  An outcome is `failed` if its write was answered with
a fault, which it then tells, and no other outcome has an error.  It is `noMatch` if
its entry is no addition and no row of the working copy, as it is then, has its key. -/
theorem entries_accounted (policy : FloorPolicy) (faults : Faults) (plan : Plan)
    (snapshot : List Item) (start : σ) :
    let x := ofPlan policy faults plan snapshot start
    x.report.map Outcome.entry =
        plan.adjust.map .adjust ++ plan.remove.map .remove ++ plan.add.map .add ∧
      List.Forall₂ (fun o w => Text.matchKey w.name = Text.matchKey o.entry.name)
        (attempted x.report) x.writes ∧
      x.store = Holder.after start (x.calls faults) ∧
      List.Forall₂ (fun o answer => o.status = .failed ↔ answer ≠ none)
        (attempted x.report) (Holder.answers start (x.calls faults)) ∧
      (∀ o ∈ x.report, if o.status = .failed then ∃ text ∈ o.error, text ≠ [] else o.error = none) ∧
      ∀ i o, x.report[i]? = some o → (o.status = .noMatch ↔ o.entry.operation ≠ .add ∧
        ∀ row ∈ (progressAt policy faults plan snapshot start i).working,
          row.key ≠ Text.matchKey o.entry.name) := by
  intro x
  have haccounts : Accounts faults ⟨start, snapshot, 0⟩ plan.entries x.events _ :=
    accounts_run policy faults plan.entries ⟨start, snapshot, 0⟩
  refine ⟨?_, haccounts.writes, haccounts.store, ?_, ?_, ?_⟩
  · rw [report, List.map_map]
    exact haccounts.entries
  · exact List.Forall₂.imp (fun _ _ h => h.1) haccounts.answers
  · intro o ho
    obtain ⟨event, hevent, rfl⟩ := List.mem_map.mp ho
    exact haccounts.errors event hevent
  · intro i o ho
    rw [report, List.getElem?_map, show x.events[i]? = _ from getElem?_run ..] at ho
    obtain ⟨event, hevent, rfl⟩ := Option.map_eq_some_iff.mp ho
    obtain ⟨e, _, rfl⟩ := Option.map_eq_some_iff.mp hevent
    have hentry :=
      (accounts_step policy faults (progressAt policy faults plan snapshot start i) e).1
    rw [← progressAt, hentry, noMatch_step_iff, Entry.effect?_eq_none_iff_forall]

end Execution
end SpokenList
