import SpokenList.CommandLine

/-! # The program

Reads the environment and the arguments, shows what the run leaves, and exits.
There is no key for an assistant here, so every command is compiled.
-/

namespace SpokenList.Environment

/-- The variables that the program reads. -/
def variableNames : List String :=
  ["DATABASE_URL", "MAX_UTTERANCE_LENGTH", "MAX_ITEM_QUANTITY", "ADJUST_FLOOR_POLICY",
   "LLM_PLAN_ENABLED", "LLM_PLAN_MODEL", "CORS_ORIGINS"]

/-- The environment of the process. -/
def read : IO Environment :=
  variableNames.filterMapM fun name => do
    return (← IO.getEnv name).map fun value => (name.toList, value.toList)

end SpokenList.Environment

open SpokenList

/-- Runs the program. -/
def main (arguments : List String) : IO UInt32 := do
  match Settings.ofEnvironment (← Environment.read) with
  | .error e =>
    (← IO.getStderr).putStrLn (String.ofList e.message)
    return 1
  | .ok settings =>
    let r := CommandLine.run settings .absent (arguments.map String.toList)
    IO.print (String.ofList r.output)
    return UInt32.ofNat (r.exit.getD 0)
