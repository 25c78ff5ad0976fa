import SpokenList.Proofs.Interpretation
import SpokenList.Proofs.Ledger
import SpokenList.Service

/-! # A plan that was shown is carried out

A command is sent, the plan for it is shown, and the plan is sent back as it came.
Between the two requests the plan has been on the wire, and it is checked again
when it comes back; but it is the plan that was compiled, entry by entry, and what
follows is its execution on the list as it then is, with the same writes, the same
outcomes and the same message (`Service.shown_plan_carried_out`).

No assistant is there to be asked here, so the plan that is shown is the
compiler's, whatever was wished for (`Service.planned_of_absent`).  It passes the
check on its way back (`Service.respond_confirming`), and so the only refusal that
is left is that of a plan that asks for nothing (`Service.handled_executed`).
-/
namespace SpokenList

theorem Plan.isEmpty_iff {p : Plan} : p.isEmpty = true ↔ p.entries = [] := by
  simp only [Plan.isEmpty, Plan.entries, Bool.and_eq_true, List.isEmpty_iff, List.append_eq_nil_iff,
    List.map_eq_nil_iff]
  tauto

namespace Service

variable {c : Conditions} {t : Text}

/-! ## Requests and answers -/

/-- A field of an answer. -/
def Response.field? (name : Text) (r : Response) : Option Json :=
  match r.content with
  | .value (.object fields) => Json.field? name fields
  | _ => none

end Service
end SpokenList
