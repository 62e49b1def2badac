import SchemaTransfer.Command.Arguments
import SchemaTransfer.Command.IntegerArgument
import SchemaTransfer.Command.Show
import SchemaTransfer.Command.Transfer

/-!
# The program

The command line names a command. Options of the program stand before it, those of the command
after it. A variable of the environment stands in for an option that is not given; an empty one is
no variable.
-/
namespace SchemaTransfer

inductive Command
  | transfer (command : TransferCommand)
  | show (command : ShowCommand)
  | help
  | completion

def Command.run (s : Surroundings) : Command → Run Exit Unit
  | .transfer command => command.run s
  | .show command => command.run s.console
  | .help | .completion => return

abbrev Environment := Text → Option Text

structure CommandLine where
  /-- How much of the log is wanted. -/
  verbosity : Nat
  command : Command

namespace CommandLine

open Arguments

def helpFlag : Text := "help"

def verboseFlag : Text := "verbose"

/-- Flags by which a shell learns to complete commands. They concern the shell and no schema. -/
def completionFlags : List Text := ["install-completion", "show-completion"]

/-- The options of the program. -/
def programOptions : Vocabulary where
  values := []
  flags := [verboseFlag, helpFlag] ++ completionFlags
  letters := [('v', verboseFlag)]
  interspersed := false

/-- The options of a transfer that have a value. -/
def transferValues : List Text :=
  ["hbase-host", "hbase-port", "table-filter", "input-file", "project-id", "instance-id",
    "output-file", "mapping-file"]

def transferOptions : Vocabulary where
  values := transferValues
  flags := ["dry-run", "yes", helpFlag]
  letters := []
  interspersed := true

def showOptions : Vocabulary where
  values := ["name"]
  flags := [helpFlag]
  letters := []
  interspersed := true

/-- How a code point of an option's name is written in the name of its variable. -/
def variableLetter (c : CodePoint) : CodePoint := if c = '-' then '_' else c.asciiUpper

/-- The variable for an option of a transfer. -/
def variableFor (option : Text) : Text := "HBSCHEMA_" ++ option.map variableLetter

/-- The value of an option, from the command line or else from the environment. -/
def valueOf (environment : Environment) (p : Parsed) (option : Text) : Option Text :=
  (p.value? option).or ((environment (variableFor option)).filter (· ≠ []))

def portOf : Option Text → Except UsageError (Option Int)
  | none => .ok none
  | some t =>
    match IntegerArgument.read? t with
    | some n => .ok (some n)
    | none => .error (.badPort t)

def transferOf (environment : Environment) (p : Parsed) : Except UsageError Command := do
  let value := valueOf environment p
  let portNumber ← portOf (value "hbase-port")
  match p.others with
  | argument :: _ => throw (.extraArgument argument)
  | [] =>
    let options : Options :=
      { hbaseHost := value "hbase-host"
        hbasePort := portNumber
        tableFilter := value "table-filter"
        inputFile := value "input-file"
        projectId := value "project-id"
        instanceId := value "instance-id"
        outputFile := value "output-file"
        mappingFile := value "mapping-file" }
    return .transfer ⟨options, p.has "dry-run", p.has "yes"⟩

def showOf (p : Parsed) : Except UsageError Command :=
  match p.others with
  | [] => .error .missingFile
  | [file] => .ok (.show ⟨file, p.value? "name"⟩)
  | _ :: argument :: _ => .error (.extraArgument argument)

/-- A command whose arguments have these options; help takes precedence over what it would do. -/
def commandOf (options : Vocabulary) (make : Parsed → Except UsageError Command)
    (arguments : List Text) : Except UsageError Command := do
  let p ← parse options arguments
  if p.has helpFlag then return .help else make p

/-- What options of the program do in place of a command; help takes precedence. -/
def insteadOfCommand? (p : Parsed) : Option Command :=
  if p.has helpFlag then some .help
  else if completionFlags.any p.has then some .completion
  else none

/-- The command of a name that is none. Where the name looks like an option, which it can after
`--`, it is taken for one first. -/
def unknown (name : Text) (arguments : List Text) : Except UsageError Command := do
  match insteadOfCommand? (← parse programOptions (name :: arguments)) with
  | some command => return command
  | none => throw (.unknownCommand name)

def namedCommand (environment : Environment) (name : Text) (arguments : List Text) :
    Except UsageError Command :=
  if name = "translate" then commandOf transferOptions (transferOf environment) arguments
  else if name = "show" then commandOf showOptions showOf arguments
  else unknown name arguments

def read (environment : Environment) (arguments : List Text) : Except UsageError CommandLine := do
  if arguments = [] then throw .noArguments
  let p ← parse programOptions arguments
  let verbosity := p.count verboseFlag
  match insteadOfCommand? p, p.others with
  | some command, _ => return ⟨verbosity, command⟩
  | none, [] => throw .missingCommand
  | none, name :: arguments => return ⟨verbosity, ← namedCommand environment name arguments⟩

end CommandLine

/-! ## Running -/

/-- Whether a message of the log is wanted. -/
def LogLevel.isShown (verbosity : Nat) : LogLevel → Bool
  | .error => true
  | .info => 1 ≤ verbosity
  | .debug => 2 ≤ verbosity

/-- Whether an event shows. -/
def Event.isShown (verbosity : Nat) : Event → Bool
  | .log level _ => level.isShown verbosity
  | _ => true

/-- What came of a command line: its exit, the world after it, and the events that show. -/
structure Outcome where
  exit : Exit
  after : World
  shown : List Event

def CommandLine.run (s : Surroundings) (line : CommandLine) (w : World) : Outcome :=
  let (r, w) := line.command.run s w
  ⟨Exit.ofResult r, w, w.events.filter (Event.isShown line.verbosity)⟩

end SchemaTransfer
