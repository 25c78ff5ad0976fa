import SpokenList.Assistant
import SpokenList.Utterance.Compile

/-! # Interpreting a command

A command is read by the assistant, if that is wanted, and else by the compiler.
The compiler also takes over whenever the assistant gives no reply, so that no
command is lost.  A blank command asks for nothing, and nobody is asked.
-/
namespace SpokenList

/-- Who read the command. -/
inductive Reader where
  | compiler
  | assistant
  deriving DecidableEq, Repr

/-- The word for the reader. -/
def Reader.name : Reader → Text
  | compiler => "deterministic"
  | assistant => "llm"

/-- A plan for a command, who made it, and what happened on the way. -/
structure Interpretation where
  plan : Plan
  reader : Reader
  calls : List Assistant.Call
  journal : List Record
  deriving DecidableEq, Repr

namespace Interpretation

/-- The compiler's reading, after whatever was tried before it. -/
def compiled (limits : Limits) (calls : List Assistant.Call) (before : List Record)
    (utterance : Text) : Interpretation :=
  ⟨Utterance.compile limits utterance, .compiler, calls,
    before ++ Utterance.journal limits utterance⟩

/-- The assistant's reading, or the compiler's if there is no reply. -/
def assisted (limits : Limits) (model : Text) (assistant : Assistant) (utterance : Text) :
    Interpretation :=
  let calls := assistant.calls model (some utterance)
  match assistant.reply with
  | .ok reply =>
    ⟨reply.planFor limits (some utterance), .assistant, calls,
      reply.journal limits ++
        [⟨.info, .assistant, "Parsed voice plan with LLM: " ++
          Text.preview utterance Text.previewLength⟩]⟩
  | .error failure =>
    compiled limits calls
      [⟨.warning, .assistant, "LLM plan parse failed, using deterministic parser: " ++
        failure.message⟩]
      utterance

/-- Reads a command, or the want of one; `wanted` tells whether the assistant is to
be asked, and the settings decide if it does not. -/
def ofUtterance (limits : Limits) (enabled : Bool) (wanted : Option Bool) (model : Text)
    (assistant : Assistant) (utterance : Option Text) : Interpretation :=
  let t := utterance.getD []
  if Text.isBlankText t then ⟨.empty t, .compiler, [], []⟩
  else if wanted.getD enabled then assisted limits model assistant t
  else compiled limits [] [] t

end Interpretation
end SpokenList
