import ModelGrid.Component.Generate

/-!
# The command line

The arguments of a run are options with a value each.  An option is written by its long name, with
the value behind an equals sign or as the next argument, or by its letter, with the value right
behind it, behind an equals sign, or as the next argument.

## Main definitions

* `Flag`: the options.
* `Command`: what the arguments ask for.
* `Command.ofArguments`: the reading of the arguments.
* `Outcome`, `run`: what a run prints and the code that it ends with.
-/

namespace ModelGrid.CommandLine

open Component

/-- The options. -/
inductive Flag
  | name | project | modelFile | modulePart | path | root
  deriving DecidableEq, Repr

namespace Flag

def all : List Flag := [name, project, modelFile, modulePart, path, root]

/-- The name of the option behind two dashes. -/
def longName : Flag → String
  | name => "name"
  | project => "project"
  | modelFile => "csfile"
  | modulePart => "module"
  | path => "path"
  | root => "root"

/-- The letter of the option behind one dash. -/
def letter? : Flag → Option Char
  | name => some 'n'
  | project => some 'p'
  | modelFile => some 'c'
  | modulePart => some 'm'
  | path => none
  | root => some 'r'

/-- Whether the value has to denote a file or folder, and so cannot be empty. -/
def isLocation : Flag → Bool
  | modelFile | root => true
  | _ => false

end Flag

/-- Why the arguments are refused. -/
inductive Refusal
  | unknown (argument : String)
  | unexpected (argument : String)
  | repeated (flag : Flag)
  | withoutValue (flag : Flag)
  | emptyValue (flag : Flag)
  | required (flag : Flag)
  deriving DecidableEq, Repr

/-- What the user is told. -/
def Refusal.message : Refusal → String
  | unknown argument => "unknown option '" ++ argument ++ "'"
  | unexpected argument => "unexpected argument '" ++ argument ++ "'"
  | repeated flag => "the option '--" ++ flag.longName ++ "' stands there twice"
  | withoutValue flag => "the option '--" ++ flag.longName ++ "' needs a value"
  | emptyValue flag => "the value of '--" ++ flag.longName ++ "' is empty"
  | required flag => "the option '--" ++ flag.longName ++ "' is required"

/-! ### Single arguments -/

/-- What an argument is, seen alone. -/
inductive Argument
  | help
  /-- Two dashes: no option follows. -/
  | separator
  /-- An option whose value is the next argument. -/
  | bare (flag : Flag)
  | valued (flag : Flag) (value : String)
  | unknownFlag
  | plain
  deriving DecidableEq, Repr

namespace Argument

/-- An option written by its long name. -/
def ofLong (body : List Char) : Argument :=
  let (name, rest) := body.span (· != '=')
  match Flag.all.find? fun flag => flag.longName.toList == name with
  | some flag =>
    match rest with
    | [] => .bare flag
    | _ :: value => .valued flag (String.ofList value)
  | none => if body == "help".toList then .help else .unknownFlag

/-- An option written by its letter. -/
def ofLetter (letter : Char) (rest : List Char) : Argument :=
  match Flag.all.find? fun flag => flag.letter? == some letter with
  | some flag =>
    match rest with
    | [] => .bare flag
    | '=' :: value => .valued flag (String.ofList value)
    | value => .valued flag (String.ofList value)
  | none => if letter == 'h' then .help else .unknownFlag

/-- What an argument is, seen alone.  A lone dash is no option. -/
def ofText (argument : String) : Argument :=
  match argument.toList with
  | ['-', '-'] => .separator
  | '-' :: '-' :: body => ofLong body
  | '-' :: letter :: rest => ofLetter letter rest
  | _ => .plain

end Argument

/-! ### All arguments -/

/-- What the arguments ask for. -/
inductive Command
  | help
  | generate (root : String) (request : Request)
  deriving DecidableEq, Repr

namespace Command

/-- The options read so far with their values. -/
abbrev Given := List (Flag × String)

/-- One more option with its value. -/
def put (given : Given) (flag : Flag) (value : String) : Except Refusal Given :=
  if given.any fun entry => entry.1 == flag then .error (.repeated flag)
  else if flag.isLocation && value.isEmpty then .error (.emptyValue flag)
  else .ok ((flag, value) :: given)

/-- The value of an option that may be left out. -/
def value? (given : Given) (flag : Flag) : Option String :=
  given.lookup flag

/-- The value of an option that may not be left out. -/
def value (given : Given) (flag : Flag) : Except Refusal String :=
  match value? given flag with
  | some value => .ok value
  | none => .error (.required flag)

/-- The folder that is the root of the workspace where none is named. -/
def standardRoot : String := "."

/-- What the options ask for. -/
def ofGiven (given : Given) : Except Refusal Command := do
  let name ← value given .name
  let project ← value given .project
  let modelFile ← value given .modelFile
  return .generate ((value? given .root).getD standardRoot)
    { name, project, modelFile,
      modulePart := value? given .modulePart
      path := value? given .path }

/-- The reading of the arguments behind those that gave the options. -/
def read (given : Given) : List String → Except Refusal Command
  | [] => ofGiven given
  | argument :: rest =>
    match Argument.ofText argument with
    | .help => .ok .help
    | .separator =>
      match rest with
      | [] => ofGiven given
      | extra :: _ => .error (.unexpected extra)
    | .unknownFlag => .error (.unknown argument)
    | .plain => .error (.unexpected argument)
    | .valued flag value =>
      match put given flag value with
      | .ok given => read given rest
      | .error refusal => .error refusal
    | .bare flag =>
      match rest with
      | [] => .error (.withoutValue flag)
      | value :: rest =>
        if Argument.ofText value != .plain then .error (.withoutValue flag)
        else
          match put given flag value with
          | .ok given => read given rest
          | .error refusal => .error refusal

/-- The reading of the arguments. -/
def ofArguments (arguments : List String) : Except Refusal Command :=
  read [] arguments

end Command

/-! ### Runs -/

/-- The text that explains the options. -/
def helpText : String :=
  "Generate an Angular table component from an annotated C# model\n" ++
  "\n" ++
  "Usage: table-scaffold [OPTIONS] --name <NAME> --project <PROJECT> --csfile <CSFILE>\n" ++
  "\n" ++
  "Options:\n" ++
  "  -n, --name <NAME>        Component name\n" ++
  "  -p, --project <PROJECT>  Project name in the workspace file\n" ++
  "  -c, --csfile <CSFILE>    C# model file\n" ++
  "  -m, --module <MODULE>    Partial name of the module file that declares the component\n" ++
  "      --path <PATH>        Folder that receives the component folder\n" ++
  "  -r, --root <ROOT>        Workspace root [default: .]\n" ++
  "  -h, --help               Print help\n"

/-- What a run prints and the code that it ends with. -/
structure Outcome where
  exitCode : Nat
  output : String := ""
  errors : String := ""
  deriving DecidableEq, Repr

/-- The outcome of a run that did what it was asked for. -/
def Outcome.ofReport (report : Report) : Outcome :=
  { exitCode := 0
    output :=
      "Generated " ++ report.blueprint.className ++ " with " ++
        toString report.properties.length ++ " columns in " ++
        report.blueprint.targetFolder ++ "\n" }

/-- The outcome of a run that failed. -/
def Outcome.ofFault (fault : Fault) : Outcome :=
  { exitCode := 1, errors := "Error: " ++ fault.message ++ "\n" }

/-- A run with the arguments on a disk: its outcome, and the disk as it leaves it. -/
def run (settings : Settings) (arguments : List String) (d : Store.Disk) :
    Outcome × Store.Disk :=
  match Command.ofArguments arguments with
  | .error refusal => ({ exitCode := 2, errors := "error: " ++ refusal.message ++ "\n" }, d)
  | .ok .help => ({ exitCode := 0, output := helpText }, d)
  | .ok (.generate root request) =>
    match (generate ⟨.ofString root⟩ settings request).run d with
    | (.ok report, after) => (.ofReport report, after)
    | (.error fault, after) => (.ofFault fault, after)

end ModelGrid.CommandLine
