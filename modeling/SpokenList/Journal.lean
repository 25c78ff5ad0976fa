import SpokenList.Text.Quoted

/-! # The journal

What the program notes about its own work.  A record has a level, the part of
the program that noted it, and a message.  Commands are people's words, so from
the level `info` upwards only a preview of them is noted.
-/
namespace SpokenList

/-- How important a record is. -/
inductive Level where
  | debug
  | info
  | warning
  | error
  | critical
  deriving DecidableEq, Repr

/-- The part of the program that notes a record. -/
inductive Source where
  | settings
  | compiler
  | proposals
  | assistant
  | execution
  deriving DecidableEq, Repr

/-- One record of the journal. -/
structure Record where
  level : Level
  source : Source
  message : Text
  deriving DecidableEq, Repr

namespace Level

/-- The levels, the least important first. -/
def all : List Level := [debug, info, warning, error, critical]

/-- The name of the level. -/
def name : Level → Text
  | debug => "DEBUG"
  | info => "INFO"
  | warning => "WARNING"
  | error => "ERROR"
  | critical => "CRITICAL"

end Level

namespace Source

/-- The logger under which the part notes its records. -/
def logger : Source → Text
  | settings => "grocery_bot.config"
  | compiler => "grocery_bot.voice.parsers.deterministic"
  | proposals => "grocery_bot.voice.parsers.validators"
  | assistant => "grocery_bot.voice.parsers.llm_parsers"
  | execution => "grocery_bot.voice.executor"

end Source

namespace Text

/-- How many characters of a command a preview shows. -/
def previewLength : Int := 50

/-- The text itself if it is short enough, else its beginning and an ellipsis. -/
def preview (t : Text) (limit : Int) : Text :=
  if t.isEmpty then []
  else if t.length ≤ limit then t
  else upTo limit t ++ "..."

end Text
end SpokenList
