import SpokenList.Interpretation
import SpokenList.Json.Writer
import SpokenList.Plan.Summary
import SpokenList.Plan.Wire

/-! # The command line

The program is started to serve requests, or with `--parse` to show the plan for
one command.  An option may be written by any beginning of its name that no
other option has, and its value may follow after `=` or as the next argument.

Arguments are told apart first (`Argument.classify`) and then followed from left
to right (`follow`).  One that begins with a dash is an option, unless it is a
negative number or holds a space; after `--` nothing is.  As the value of an
option two dashes stand for no value at all (`given?`): the option is set then,
but to nothing.
-/
namespace SpokenList.CommandLine

/-- The options. -/
inductive Flag where
  | help
  | host
  | port
  | reload
  | parse
  | llm
  deriving DecidableEq, Repr

namespace Flag

/-- All options. -/
def all : List Flag := [help, host, port, reload, parse, llm]

/-- The name of the option. -/
def name : Flag → Text
  | help => "--help"
  | host => "--host"
  | port => "--port"
  | reload => "--reload"
  | parse => "--parse"
  | llm => "--llm"

/-- The option with exactly this name. -/
def ofName? (t : Text) : Option Flag := all.find? fun f => f.name == t

/-- The options whose names begin so. -/
def startingWith (t : Text) : List Flag := all.filter fun f => t.isPrefixOf f.name

end Flag

/-- What an argument is. -/
inductive Argument where
  /-- A value, or something that has no place. -/
  | plain (t : Text)
  /-- An option, perhaps with its value. -/
  | flag (f : Flag) (value : Option Text)
  /-- It looks like an option, but there is none of that name. -/
  | unknown
  deriving DecidableEq, Repr

namespace Argument

/-- A minus sign and decimal digits of any script, perhaps with a point among
them; a line feed may follow. -/
def isNegativeNumber : Text → Bool
  | '-' :: t =>
    let body := if t.getLast? = some '\n' then t.dropLast else t
    let (whole, fraction) := body.span (· != '.')
    whole.all Text.isDecimalDigit && match fraction with
      | [] => !whole.isEmpty
      | _ :: digits => !digits.isEmpty && digits.all Text.isDecimalDigit
  | _ => false

/-- An argument that begins with a dash and is no option. -/
def other (t : Text) : Argument :=
  if isNegativeNumber t || t.contains ' ' then .plain t else .unknown

/-- The name and the value that an equals sign separates. -/
def splitValue (t : Text) : Text × Option Text :=
  match t.span (· != '=') with
  | (name, _ :: value) => (name, some value)
  | (name, []) => (name, none)

/-- An option by its full name, or by the beginning of it; nothing if several
options begin so. -/
def ofLongName (t : Text) : Option Argument :=
  let (name, value) := splitValue t
  match Flag.ofName? name with
  | some f => some (.flag f value)
  | none =>
    match Flag.startingWith name with
    | [] => some (other t)
    | [f] => some (.flag f value)
    | _ => none

/-- The value that follows the short name of the help option.  There is none when
that name has only been repeated, perhaps after an equals sign. -/
def helpValue? (t : Text) : Option Text :=
  let repeated := match t with
    | '=' :: rest => rest
    | _ => t
  if t.isEmpty || (!repeated.isEmpty && repeated.all (· == 'h')) then none else some t

/-- What an argument is; nothing if it may mean several options. -/
def classify : Text → Option Argument
  | ['-'] => some (.plain ['-'])
  | '-' :: '-' :: t => ofLongName ('-' :: '-' :: t)
  | '-' :: 'h' :: t => some (.flag .help (helpValue? t))
  | '-' :: t => some (other ('-' :: t))
  | t => some (.plain t)

/-- What the arguments are; nothing if one of them may mean several options. -/
def classifyAll : List Text → Option (List Argument)
  | [] => some []
  | ['-', '-'] :: rest => some (.unknown :: rest.map .plain)
  | t :: rest => do
    let a ← classify t
    let more ← classifyAll rest
    return a :: more

end Argument

/-- What the options say; a host, a port or a command may be set to nothing. -/
structure Options where
  host : Option Text
  port : Option Int
  reload : Bool
  /-- The command whose plan is to be shown, if one is to be shown at all. -/
  command : Option (Option Text)
  /-- The assistant is to be asked for it. -/
  assisted : Bool
  deriving DecidableEq, Repr

/-- What holds without options. -/
def Options.standard : Options := ⟨some "0.0.0.0", some 8000, false, none, false⟩

/-- What the arguments come to. -/
inductive Reading where
  | run (options : Options)
  | help
  | refused
  deriving DecidableEq, Repr

/-- The value that a text gives to an option: two dashes give none. -/
def given? (t : Text) : Option Text := if t = ['-', '-'] then none else some t

/-- The port that a text gives, which may be none; nothing if it is no integer. -/
def port? (t : Text) : Option (Option Int) :=
  match given? t with
  | none => some none
  | some t => (Text.readInteger t).toOption.map some

/-- Sets an option that has a value. -/
def Options.set? (o : Options) (value : Text) : Flag → Option Options
  | .host => some { o with host := given? value }
  | .port => (port? value).map fun n => { o with port := n }
  | .parse => some { o with command := some (given? value) }
  | _ => none

/-- Follows the arguments; `stray` tells whether one had no place. -/
def follow (o : Options) (stray : Bool) : List Argument → Reading
  | [] => if stray then .refused else .run o
  | .plain _ :: rest => follow o true rest
  | .unknown :: rest => follow o true rest
  | .flag .help none :: _ => .help
  | .flag .reload none :: rest => follow { o with reload := true } stray rest
  | .flag .llm none :: rest => follow { o with assisted := true } stray rest
  | .flag f (some value) :: rest =>
    match o.set? value f with
    | some o => follow o stray rest
    | none => .refused
  | .flag f none :: .plain value :: rest =>
    match o.set? value f with
    | some o => follow o stray rest
    | none => .refused
  | .flag _ none :: _ => .refused

/-- Reads the arguments. -/
def read (arguments : List Text) : Reading :=
  match Argument.classifyAll arguments with
  | some as => follow .standard false as
  | none => .refused

/-- A start of the service. -/
structure Served where
  host : Option Text
  port : Option Int
  reload : Bool
  deriving DecidableEq, Repr

/-- The application that is served. -/
def Served.application : Text := "grocery_bot.main:app"

/-- What a run of the program leaves. -/
structure Run where
  output : Text
  /-- The exit code, unless the program ends on its own. -/
  exit : Option Nat
  served : List Served
  deriving DecidableEq, Repr

/-- A line of fifty equal characters. -/
def ruler (c : Char) : Text := List.replicate 50 c

/-- A plan for a command as it is shown. -/
def planShown (i : Interpretation) : Text :=
  Text.lines
    ["", "Source: " ++ i.reader.name, ruler '-', i.plan.summary, ruler '-',
     Json.indented i.plan.toJson, ""]

/-- What is shown where there is no value. -/
def nothing : Text := "[]"

/-- What is shown before serving. -/
def banner (o : Options) : Text :=
  Text.lines
    ["", ruler '=', "Starting Grocery Bot API",
     "  URL: http://" ++ o.host.getD nothing ++ ':' :: (o.port.map Text.ofInt).getD nothing,
     ruler '=', "", ""]

/-- Runs the program with arguments. -/
def run (settings : Settings) (assistant : Assistant) (arguments : List Text) : Run :=
  match read arguments with
  | .refused => ⟨[], some 2, []⟩
  | .help => ⟨[], some 0, []⟩
  | .run o =>
    match o.command with
    | some command =>
      ⟨planShown (.ofUtterance settings.limits settings.assistantEnabled (some o.assisted)
        settings.assistantModel assistant command), some 0, []⟩
    | none => ⟨banner o, none, [⟨o.host, o.port, o.reload⟩]⟩

end SpokenList.CommandLine
