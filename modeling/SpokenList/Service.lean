import SpokenList.Execution
import SpokenList.Interpretation
import SpokenList.Json.Reader
import SpokenList.Ledger
import SpokenList.Plan.Summary
import SpokenList.Service.Endpoint
import SpokenList.Text.Capital
import SpokenList.Text.Encoding

/-! # The service

What the program answers to requests over the network: a command is compiled
into a plan to confirm, a confirmed plan is carried out on the ledger, and the
list is shown.  Nothing but a confirmed plan changes the ledger.
-/
namespace SpokenList

/-- The item as it is shown to the outside. -/
def Item.toJson (i : Item) : Json :=
  .objectOf
    [("id", .integer i.id), ("name", .text i.name), ("quantity", .integer i.quantity),
     ("note", .ofText? i.note), ("order", .integer i.order)]

namespace Service

/-- What comes with a request. -/
inductive Body where
  | absent
  | value (v : Json)
  | raw (t : Text)

/-- A request. -/
structure Request where
  method : Text
  address : Text
  body : Body

/-- What goes back: a value, or a plain text. -/
inductive Content where
  | value (v : Json)
  | plain (t : Text)

/-- A response. -/
structure Response where
  status : Nat
  content : Content

/-- What holds while a request is answered. -/
structure Conditions where
  settings : Settings
  assistant : Assistant
  /-- The faults that strike its commits. -/
  faults : Faults
  /-- The reads of the list that fail, counted from zero. -/
  failsRead : Nat → Bool

namespace Response

/-- A value as the answer. -/
def ok (v : Json) : Response := ⟨200, .value v⟩

/-- A refusal with its reason. -/
def refusal (status : Nat) (detail : Text) : Response :=
  ⟨status, .value (.objectOf [("detail", .text detail)])⟩

/-- A step of a path as a value. -/
def stepJson : Step → Json
  | .field name => .text name
  | .index i => .integer i

/-- A problem in the body as a value. -/
def problemJson (p : Problem) : Json :=
  .objectOf
    [("type", .text p.cause.code), ("loc", .list (.text "body" :: p.path.map stepJson)),
     ("msg", .text p.cause.message)]

/-- The answer when nothing was prepared for what went wrong. -/
def brokenDown : Response := ⟨500, .plain "Internal Server Error"⟩

/-- The answer to a body with problems.  It goes with the values that were found,
so there is none when a number among them cannot be written. -/
def unprocessable (ps : List Problem) : Response :=
  if ps.all fun p => p.value.isFinite then
    ⟨422, .value (.objectOf [("detail", .list (ps.map problemJson))])⟩
  else brokenDown

/-- The answer to a body that cannot be read at all. -/
def unreadableBody : Response := refusal 400 "There was an error parsing the body"

/-- The answer when the list cannot be read before a plan is carried out. -/
def unreadableList : Response :=
  refusal 503 "Couldn't read your grocery list. Please try again."

end Response

namespace Body

/-- How much of a body is read. -/
def bounds : Json.Bounds := ⟨967, Text.digitLimit⟩

/-- The answer when there is no body. -/
def missing : Response := .unprocessable [⟨[], .missing, .null⟩]

/-- Reads a body that came as text. -/
def read (t : Text) : Except Response Json :=
  match t.received? with
  | none => .error .unreadableBody
  | some received =>
    match Json.read bounds received with
    | .ok v => .ok v
    | .error .excessive => .error .unreadableBody
    | .error (.malformed position) =>
      .error (.unprocessable [⟨[.index position], .malformed, .object []⟩])

/-- The value of a body, or the answer to a body that has none. -/
def value? : Body → Except Response Json
  | absent => .error missing
  | value v => .ok v
  | raw [] => .error missing
  | raw t => read t

end Body

/-- Reads the body with a check, and answers what it gives. -/
def withBody {α : Type} (body : Body) (check : Json → Checked α) (answer : α → Response × Ledger)
    (l : Ledger) : Response × Ledger :=
  match body.value? with
  | .error response => (response, l)
  | .ok v =>
    match check v with
    | .ok a => answer a
    | .error ps => (.unprocessable ps, l)

/-! ## Compiling -/

/-- A request for a plan. -/
structure PlanRequest where
  utterance : Text
  wanted : Option Bool
  deriving DecidableEq, Repr

/-- Reads a request for a plan. -/
def PlanRequest.ofJson (limits : Limits) : Json → Checked PlanRequest :=
  Checked.object .request "PlanCompileRequest" fun fields =>
    (Checked.both (Checked.required "text" (Checked.textUpTo limits.utterance) fields)
      (Checked.optional "use_llm" none (Checked.orNull Checked.bool) fields)).map
      fun (utterance, wanted) => ⟨utterance, wanted⟩

/-- The plan to confirm. -/
def planned (c : Conditions) (r : PlanRequest) : Response :=
  let i := Interpretation.ofUtterance c.settings.limits c.settings.assistantEnabled r.wanted
    c.settings.assistantModel c.assistant (some r.utterance)
  .ok <| .objectOf
    [("plan", i.plan.toJson), ("summary", .text i.plan.summary),
     ("actionable", .bool !i.plan.isEmpty), ("source", .text i.reader.name)]

/-! ## Carrying out -/

/-- Reads the plan that was confirmed. -/
def confirmedPlan (limits : Limits) : Json → Checked Plan :=
  Checked.object .request "PlanExecuteRequest" fun fields =>
    Checked.required "plan" (Plan.ofJson limits .request) fields

/-- The rows of a list as a value. -/
def itemsJson (rows : List Item) : Json := .list (rows.map Item.toJson)

/-- Carries a confirmed plan out.  The list is read before and after; when it
cannot be read after, the answer goes without it. -/
def executed (c : Conditions) (plan : Plan) (l : Ledger) : Response × Ledger :=
  match plan.objection? with
  | some reason => (.refusal 400 reason, l)
  | none =>
    if c.failsRead 0 then (.unreadableList, l)
    else
      let x := Execution.ofPlan c.settings.floorPolicy c.faults plan (Holder.items l) l
      let items := if c.failsRead 1 then .null else itemsJson (Holder.items x.store)
      (.ok <| .objectOf
        [("result", x.report.toJson), ("message", .text x.report.message), ("items", items)],
        x.store)

/-! ## Every request -/

/-- The answer of an endpoint, and the ledger after it. -/
def Endpoint.respond (c : Conditions) (body : Body) (l : Ledger) : Endpoint → Response × Ledger
  | health => (.ok (.objectOf [("status", .text "ok")]), l)
  | items => (if c.failsRead 0 then .brokenDown else .ok (itemsJson (Holder.items l)), l)
  | plan =>
    withBody body (PlanRequest.ofJson c.settings.limits) (fun r => (planned c r, l)) l
  | execute =>
    withBody body (confirmedPlan c.settings.limits) (fun p => executed c p l) l

/-- The answer to a request by a method, and the ledger after it. -/
def dispatch (c : Conditions) (method : Text) (r : Request) (l : Ledger) : Response × Ledger :=
  match Endpoint.ofAddress? r.address with
  | none => (.refusal 404 "Not Found", l)
  | some e =>
    if e.method = method then e.respond c r.body l
    else (.refusal 405 "Method Not Allowed", l)

/-- The answer to a request, and the ledger after it.  Methods are capitals, and
the method that asks for the head alone gets no content. -/
def respond (c : Conditions) (r : Request) (l : Ledger) : Response × Ledger :=
  let method := Text.capitals r.method
  let (response, l) := dispatch c method r l
  if method = "HEAD" then ({ response with content := .plain [] }, l) else (response, l)

end Service
end SpokenList
