import SpokenList.Journal
import SpokenList.Settings
import SpokenList.Text.Capital

/-! # Which records are shown

The level from which on records are shown, for the program and for the libraries
that it works with.  A level is given by name, in any case and with blanks
around it; a name that no level has stands for `info`.
-/
namespace SpokenList

namespace Level

/-- The level that a name stands for. -/
def ofName (t : Text) : Level :=
  let name := Text.capitals (Text.strip t)
  (all.find? fun l => l.name == name).getD .info

/-- The level that is asked for; if none is, the environment has it. -/
def chosen (env : Environment) : Option Text → Level
  | some name => ofName name
  | none => Settings.setting env "LOG_LEVEL" .info ofName

/-- The level of the libraries: they speak up when looking for mistakes only. -/
def ofLibraries (l : Level) : Level := if l = debug then debug else warning

end Level

namespace Record

/-- The loggers of the program, the outer one first. -/
def ownLoggers : List Text := ["root", "grocery_bot"]

/-- The loggers of the libraries. -/
def libraryLoggers : List Text :=
  ["httpx", "httpcore", "openai", "instructor", "sqlalchemy.engine"]

/-- The level of each logger. -/
def loggerLevels (l : Level) : List (Text × Level) :=
  ownLoggers.map (·, l) ++ libraryLoggers.map (·, l.ofLibraries)

/-- How a record is laid out. -/
def layout : Text := "%(asctime)s - %(name)s - %(levelname)s - %(message)s"

end Record
end SpokenList
