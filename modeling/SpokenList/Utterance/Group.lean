import SpokenList.Plan.Basic
import SpokenList.Utterance.ItemName
import SpokenList.Utterance.Quantity

/-! # Groups

Among the items to add, a segment need not be about one item only: every
quantity starts a new one.  A group is a quantity with the words that follow it,
without the unit word right after the quantity and without filler words.  Words
of a note are kept as they are, whatever they say.
-/
namespace SpokenList.Utterance

/-- The words about one item, after the quantity that was said for it. -/
structure Group where
  quantity : Option Int
  words : List Text
  deriving DecidableEq, Repr

/-- The words of the group as one text. -/
def Group.text (g : Group) : Text := Text.join [' '] g.words

/-- The entry that the group stands for, unless no name is left. -/
def Group.addition? (g : Group) : Option AddEntry :=
  let noted := takeNote g.text
  let name := itemName noted.text
  if name.isEmpty then none else some ⟨name, g.quantity.getD 1, noted.note⟩

/-- How far a segment has been read: the group being collected, whether its
quantity was the last token, and how many parentheses are open. -/
structure Reading where
  quantity : Option Int
  words : List Text
  afterQuantity : Bool
  depth : Nat
  deriving DecidableEq, Repr

namespace Reading

/-- Nothing has been read. -/
def start : Reading := ⟨none, [], false, 0⟩

/-- The group collected so far, if it has any word. -/
def group (r : Reading) : List Group :=
  if r.words.isEmpty then [] else [⟨r.quantity, r.words⟩]

/-- Keeps a word of the group. -/
def keep (r : Reading) (token : Text) : Reading :=
  { r with words := r.words ++ [token], afterQuantity := false }

/-- Passes over a word. -/
def pass (r : Reading) : Reading := { r with afterQuantity := false }

/-- Keeps a word of a note, and counts the parentheses in it. -/
def keepNoted (r : Reading) (token : Text) : Reading :=
  { r.keep token with depth := r.depth + token.count '(' - token.count ')' }

/-- Starts a new group. -/
def opened (n : Int) : Reading := ⟨some n, [], true, 0⟩

end Reading

/-- The groups of the tokens that are still to be read. -/
def groupsFrom (limits : Limits) (r : Reading) : List Text → List Group
  | [] => r.group
  | token :: rest =>
    if 0 < r.depth ∨ token.contains '(' then groupsFrom limits (r.keepNoted token) rest
    else match quantity? limits token with
      | some n => r.group ++ groupsFrom limits (.opened n) rest
      | none =>
        if (r.afterQuantity && unitWords.contains token) || fillerWords.contains token then
          groupsFrom limits r.pass rest
        else groupsFrom limits (r.keep token) rest

/-- The groups of a segment. -/
def groups (limits : Limits) (segment : Text) : List Group :=
  groupsFrom limits .start (Text.words segment)

/-- The entries to add that a segment asks for. -/
def addEntries (limits : Limits) (segment : Text) : List AddEntry :=
  (groups limits segment).filterMap Group.addition?

end SpokenList.Utterance
