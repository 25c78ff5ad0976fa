import SpokenList.Journal
import SpokenList.Utterance.Group
import SpokenList.Utterance.Phrase
import SpokenList.Utterance.Segment

/-! # From a command to a plan

The opening words of a command decide its intent, and that one intent holds for
all of it: `add milk, remove eggs` adds two items, one of them called
`remove eggs`.  Every command yields a plan, in the worst case one that asks for
nothing.

`compile` gives the plan and `journal` the records that are noted on the way.
-/
namespace SpokenList.Utterance

/-- What a command in normal form asks for, and the words that say it. -/
inductive Intent where
  | remove (items : Text)
  | adjust (up : Bool) (quantity : Text) (items : Text)
  | add (items : Text)
  deriving DecidableEq, Repr

/-- A token that stands where an adjustment has its quantity: decimal digits of
any script, or a number word. -/
def isQuantityWord (token : Text) : Bool :=
  (!token.isEmpty && token.all Text.isDecimalDigit) || (numberWord? token).isSome

/-- The quantity word and the items of an adjustment that one of the verbs opens. -/
def adjustment? (verbs : List Text) (t : Text) : Option (Text × Text) := do
  let rest ← afterVerb? verbs t
  let token := rest.takeWhile (!Text.isBlank ·)
  let items := rest.dropWhile (!Text.isBlank ·)
  if isQuantityWord token && Text.startsBlank items then some (token, Text.dropBlanks items)
  else none

/-- The intent of a command in normal form. -/
def intent (t : Text) : Intent :=
  match afterPhrase? removalPhrases t with
  | some items => .remove (Text.strip items)
  | none =>
    match adjustment? increaseVerbs t with
    | some (token, items) => .adjust true token items
    | none =>
      match adjustment? decreaseVerbs t with
      | some (token, items) => .adjust false token items
      | none => .add (dropSoftener t)

/-- The entry to remove that a segment asks for, unless no name is left. -/
def removal? (segment : Text) : Option RemoveEntry :=
  let name := itemName segment
  if name.isEmpty then none else some ⟨name⟩

/-- The adjustment that a segment asks for, unless no name is left. -/
def quantityChange? (delta : Int) (segment : Text) : Option AdjustEntry :=
  let name := itemName segment
  if name.isEmpty then none else some ⟨name, delta⟩

/-- The change that an adjustment makes: one, if its quantity is out of bounds. -/
def signedDelta (limits : Limits) (up : Bool) (token : Text) : Int :=
  let size := (quantity? limits token).getD 1
  if up then size else -size

/-- The plan for an intent. -/
def Intent.plan (limits : Limits) (raw : Text) : Intent → Plan
  | .remove items => { Plan.empty raw with remove := (segments items).filterMap removal? }
  | .adjust up token items =>
    { Plan.empty raw with
      adjust := (segments items).filterMap (quantityChange? (signedDelta limits up token)) }
  | .add items => { Plan.empty raw with add := (segments items).flatMap (addEntries limits) }

/-- The plan that a command stands for; it keeps the words of the command. -/
def compile (limits : Limits) (utterance : Text) : Plan :=
  match normalize utterance with
  | [] => Plan.empty utterance
  | t => (intent t).plan limits utterance

/-! ## The journal of a compilation -/

/-- A record of the compiler that only matters when looking for mistakes. -/
def aside (message : Text) : Record := ⟨.debug, .compiler, message⟩

/-- A segment of which no name is left. -/
def namelessSegment (operation : Operation) (segment : Text) : List Record :=
  if (itemName segment).isEmpty then
    [aside ("Dropping " ++ operation.word ++ " segment with no item name: " ++
      Text.quoted segment)]
  else []

/-- A group of which no name is left. -/
def namelessGroup (g : Group) : List Record :=
  if g.addition?.isNone then
    [aside ("Dropping add group with no item name: " ++ Text.quoted g.text)]
  else []

/-- A segment to add that reads like another command. -/
def commandAsItem (segment : Text) : List Record :=
  if opensCommand segment then
    [aside ("Segment starts with a command verb, treating as item text: " ++
      Text.quoted segment)]
  else []

/-- The closing record: what kind of plan, how many entries, and a preview. -/
def compiled (operation : Operation) (entries : Nat) (t : Text) : Record :=
  ⟨.info, .compiler, "Compiled " ++ operation.word ++ " plan (" ++ Text.ofNat entries ++
    " entries): " ++ Text.preview t Text.previewLength⟩

/-- The records for an intent of the command `t`. -/
def Intent.journal (limits : Limits) (t : Text) (i : Intent) : List Record :=
  let entries := (i.plan limits t).entryCount
  match i with
  | .remove items =>
    (segments items).flatMap (namelessSegment .remove) ++ [compiled .remove entries t]
  | .adjust _ token items =>
    (if (quantity? limits token).isNone then
      [aside ("Could not resolve adjust quantity " ++ Text.quoted token ++ ", using 1")]
    else []) ++
      (segments items).flatMap (namelessSegment .adjust) ++ [compiled .adjust entries t]
  | .add items =>
    (segments items).flatMap
      (fun s => commandAsItem s ++ (groups limits s).flatMap namelessGroup) ++
      [compiled .add entries t]

/-- What is noted when a command is compiled. -/
def journal (limits : Limits) (utterance : Text) : List Record :=
  match normalize utterance with
  | [] => []
  | t => (intent t).journal limits t

end SpokenList.Utterance
