import SchemaTransfer.Command.Exit
import SchemaTransfer.Regex.Matcher
import SchemaTransfer.Transfer.Pipeline

/-!
# Showing a schema file

The tables of a schema file, or those in whose name an expression matches somewhere.
-/
namespace SchemaTransfer

structure ShowCommand where
  file : Text
  name : Option Text

namespace ShowCommand

/-- The expression that names are searched for, if there is one. -/
def expression (console : Console) : Option Text → Run Exit (Option Regex)
  | none | some [] => return none
  | some (c :: rest) =>
    match Regex.compile (c :: rest) with
    | .ok r => return some r
    | .error (.malformed complaint place severalLines) =>
      Run.misuse console ("Invalid regex for --name: " ++
        (Regex.Fault.malformed complaint place severalLines).message)
    | .error fault => Run.fail (.raised (.badPattern fault))

/-- The cluster of those tables in whose name the expression matches somewhere. -/
def select (c : ClusterSchema) : Option Regex → Except DefinitionError ClusterSchema
  | none => .ok c
  | some r => ClusterSchema.ofTables (c.tables.filter fun t => r.matchesSomewhere t.name)

def load (console : Console) (file : Text) : Run Exit ClusterSchema := do
  Run.note (.status "Loading schema...")
  Run.reporting console "" (readSchemaFile (.ofText file))

/-- Without a table there is nothing to show. -/
def endIfEmpty (console : Console) (c : ClusterSchema) : Run Exit Unit :=
  if c.size = 0 then Run.stop console "No tables found." else return

def present (console : Console) (file : Text) (c : ClusterSchema) : Run Exit Unit := do
  Run.say console (.heading "Schema")
  Run.say console (.info ("File: " ++ file ++ " | Tables: " ++ Text.ofNat c.size))
  Run.present console (.ofTables "Tables" c)
  Run.present console (.ofFamilies "Column families" c)

def run (console : Console) (command : ShowCommand) : Run Exit Unit := do
  let r ← expression console command.name
  let c ← load console command.file
  let c ← Run.ofExcept ((select c r).mapError fun e => .raised (.definition e))
  endIfEmpty console c
  present console command.file c

end ShowCommand

end SchemaTransfer
