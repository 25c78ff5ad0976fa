import SpokenList.Checked.Account
import SpokenList.Proposal.Coerce
import SpokenList.Settings

/-! # The assistant

A language model that is asked for a reply to a command.  It may be absent, for
want of a key; it may fail; and what it answers may be no reply.  `reply` tells
these apart, and nothing else goes wrong once there is a reply: any reply stands
for a plan.
-/
namespace SpokenList

/-- What stands behind a request to the language model. -/
inductive Assistant where
  /-- Nothing, as there is no key for it. -/
  | absent
  /-- A model that gives this answer. -/
  | answers (reply : Json)
  /-- A model that fails and says why. -/
  | fails (message : Text)

namespace Assistant

/-- The variable with the key to the language model is set, and not to nothing. -/
def hasKey (env : Environment) : Bool := (env.value? "OPENAI_API_KEY").any (!·.isEmpty)

/-- One message of a request. -/
structure Message where
  role : Text
  content : Text
  deriving DecidableEq, Repr

/-- A request to the language model. -/
structure Call where
  model : Text
  messages : List Message
  deriving DecidableEq, Repr

/-- What the language model is told about its work. -/
def instructions : Text := Text.lines
  ["You are an assistant that converts grocery-related natural language into a machine-readable plan for a grocery list.",
   "",
   "Return a summary and a plan:",
   "- summary: plain-text bullets grouped by Add/Remove/Adjust, for example",
   "  Add:",
   "  - 2 × chickens",
   "  - 3 × steaks",
   "  Remove:",
   "  - milk",
   "  Adjust:",
   "  - +2 apples",
   "- plan.add: items to add, each with name, optional quantity, optional note",
   "- plan.remove: items to take off the list, each with name",
   "- plan.adjust: quantity changes to items already on the list, each with name and delta",
   "",
   "Rules:",
   "- Split enumerations like \"add two chickens three steaks and four pork chops\" into separate items with correct quantities.",
   "- Numbers may be words (two, three, four) or digits (2, 3, 4).",
   "- Merge duplicates by case-insensitive name.",
   "- quantity defaults to 1 if omitted.",
   "- For adjustments, positive delta means increase, negative means decrease.",
   "- Put qualifiers in parentheses (\"milk (when cheap)\") into note.",
   "- If nothing actionable, return an empty plan and a helpful summary.",
   ""]

/-- The request for a command; without one, it says so. -/
def request (model : Text) (utterance : Option Text) : Call :=
  ⟨model, [⟨"system", instructions⟩, ⟨"user", "User request: " ++ utterance.getD "None"⟩]⟩

/-- Why there is no reply. -/
inductive Failure where
  | noKey
  | failed (message : Text)
  | invalid (problems : List Problem)

/-- What is said about it. -/
def Failure.message : Failure → Text
  | noKey => "OPENAI_API_KEY not set"
  | failed message => message
  | invalid problems => Problem.account Reply.model problems

/-- The reply, or why there is none. -/
def reply : Assistant → Except Failure Reply
  | absent => .error .noKey
  | answers v => (Reply.ofJson v).mapError .invalid
  | fails message => .error (.failed message)

/-- The requests that are made to get the reply: one, if there is anyone to ask. -/
def calls (model : Text) (utterance : Option Text) : Assistant → List Call
  | absent => []
  | _ => [request model utterance]

end Assistant

namespace Reply

/-- The plan that the reply gives for a command. -/
def planFor (limits : Limits) (utterance : Option Text) (r : Reply) : Plan :=
  r.plan.coerce limits (utterance.getD [])

/-- What is noted about the reply. -/
def journal (limits : Limits) (r : Reply) : List Record :=
  ⟨.debug, .assistant, "LLM plan summary: " ++ r.summary⟩ :: r.plan.journal limits

end Reply
end SpokenList
