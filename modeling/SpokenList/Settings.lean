import SpokenList.FloorPolicy
import SpokenList.Journal
import SpokenList.Limits
import SpokenList.Text.Blank
import SpokenList.Text.LowerCase
import SpokenList.Text.Numeral

/-! # Settings

What the environment can set.  A variable that is absent stands for its default;
one that is set, even to nothing, is read.  The two limits are the only settings
that can be unreadable; every other text means something.

The floor policy is kept by name, since a name that no policy has is accepted,
and noted whenever a policy is asked for.
-/
namespace SpokenList

/-- The variables that are set, with their values. -/
abbrev Environment := List (Text × Text)

/-- The value of a variable, if it is set. -/
def Environment.value? (env : Environment) (name : Text) : Option Text :=
  (env.find? fun v => v.1 == name).map (·.2)

/-- What is said of a text that is no integer. -/
def Text.NumeralError.message : NumeralError → Text
  | unreadable t =>
    "invalid literal for int() with base 10: " ++ (Text.quoted t).take 200
  | tooLong digits =>
    "Exceeds the limit (" ++ Text.ofNat digitLimit ++
      " digits) for integer string conversion: value has " ++ Text.ofNat digits ++
      " digits; use sys.set_int_max_str_digits() to increase the limit"

/-- What the environment sets. -/
structure Settings where
  databaseUrl : Text
  limits : Limits
  floorPolicyName : Text
  assistantEnabled : Bool
  assistantModel : Text
  origins : List Text
  deriving DecidableEq, Repr

namespace FloorPolicy

/-- The policy for the name in the settings; a name that no policy has means the
default one. -/
def ofSetting (name : Text) : FloorPolicy := (ofName? name).getD .clampToOne

/-- What is noted when the policy for a name is asked for. -/
def settingJournal (name : Text) : List Record :=
  if (ofName? name).isSome then []
  else [⟨.warning, .settings, "Unknown ADJUST_FLOOR_POLICY " ++ Text.quoted name ++ ", using " ++
    clampToOne.name⟩]

end FloorPolicy

namespace Settings

/-- The settings in an environment that sets nothing. -/
def standard : Settings :=
  ⟨"sqlite:///./grocery_bot.db", .standard, FloorPolicy.clampToOne.name, false, "gpt-4o-mini", ["*"]⟩

/-- The origins in a list with commas between them; all origins, if it names none. -/
def readOrigins (t : Text) : List Text :=
  match ((t.splitOnP (· == ',')).map Text.strip).filter (!·.isEmpty) with
  | [] => ["*"]
  | origins => origins

/-- A setting with its default, read from a variable. -/
def setting {α : Type} (env : Environment) (name : Text) (default : α) (read : Text → α) : α :=
  match env.value? name with
  | some t => read t
  | none => default

/-- Reads the settings; the limit on commands is read before the one on quantities. -/
def ofEnvironment (env : Environment) : Except Text.NumeralError Settings := do
  let utterance ← setting env "MAX_UTTERANCE_LENGTH" (.ok standard.limits.utterance)
    Text.readInteger
  let quantity ← setting env "MAX_ITEM_QUANTITY" (.ok standard.limits.quantity) Text.readInteger
  return {
    databaseUrl := setting env "DATABASE_URL" standard.databaseUrl id
    limits := ⟨quantity, utterance⟩
    floorPolicyName := setting env "ADJUST_FLOOR_POLICY" standard.floorPolicyName
      fun t => Text.lower (Text.strip t)
    assistantEnabled := setting env "LLM_PLAN_ENABLED" standard.assistantEnabled
      fun t => Text.lower t == ("true" : Text)
    assistantModel := setting env "LLM_PLAN_MODEL" standard.assistantModel id
    origins := setting env "CORS_ORIGINS" standard.origins readOrigins }

/-- The floor policy that holds. -/
def floorPolicy (s : Settings) : FloorPolicy := .ofSetting s.floorPolicyName

end Settings
end SpokenList
