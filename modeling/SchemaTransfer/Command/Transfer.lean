import SchemaTransfer.Command.Exit
import SchemaTransfer.Transfer.Pipeline

/-!
# Transferring a schema

The command reads and renames first and shows what it would write. It writes only after that, never
in a dry run, and creates tables only with consent.
-/
namespace SchemaTransfer

structure TransferCommand where
  options : Options
  dryRun : Bool
  /-- Consent that was given beforehand. -/
  yes : Bool

def Destination.text : Destination → Text
  | .file path => path
  | .bigtable project instanceId => "projects/" ++ project ++ "/instances/" ++ instanceId

namespace TransferCommand

def accept (console : Console) (o : Options) : Run Exit Transfer :=
  match o.check with
  | .ok t => return t
  | .error (.options e) => Run.misuse console e.message
  | .error e => Run.fail (.raised e)

def prepare (s : Surroundings) (t : Transfer) : Run Exit Pipeline :=
  (Pipeline.prepare s t).recover fun e =>
    match e with
    | .credentials _ => Run.giveUp s.console e.message
    | _ => Run.reporting s.console "" (Run.fail e)

def plan (s : Surroundings) (p : Pipeline) : Run Exit ClusterSchema := do
  Run.note (.status "Reading schema...")
  Run.reporting s.console "Failed to read schema: " (p.plan s)

def listing (console : Console) (c : ClusterSchema) : Run Exit Unit :=
  if c.size = 0 then Run.say console (.warning "No tables found.")
  else do
    Run.say console (.heading "Schema")
    Run.present console (.ofTables "Tables to write" c)

def present (s : Surroundings) (t : Transfer) (c : ClusterSchema) : Run Exit Unit := do
  listing s.console c
  Run.say s.console (.fact "Run" s.runId)
  Run.say s.console (.fact "Tables" (Text.ofNat c.size))
  Run.say s.console (.fact "Destination" t.destination.text)

/-- A dry run ends before anything is written. -/
def endDryRun (console : Console) (dryRun : Bool) : Run Exit Unit :=
  if dryRun then Run.stop console "DRY RUN: no changes will be made." else return

/-- A file may be written at once; for tables in an instance consent is asked for. -/
def consent (s : Surroundings) (yes : Bool) (c : ClusterSchema) : Destination → Run Exit Unit
  | .file _ => return
  | .bigtable _ _ =>
    if yes then return
    else do
      let agreed ← Run.ask s ("Create " ++ Text.ofNat c.size ++ " table(s) in Bigtable?")
      if agreed then return else Run.stop s.console "Cancelled."

/-- What is said of tables that were not created. -/
def reportCreation (console : Console) (results : List CreateResult) : Run Exit Unit := do
  let failed := failedTables results
  Run.present console (.ofResults results)
  Run.giveUpWithHint console
    ("Failed to create " ++ Text.ofNat failed.length ++ " table(s): " ++ Text.join ", " failed)

def write (s : Surroundings) (p : Pipeline) (c : ClusterSchema) : Run Exit Unit := do
  Run.note (.status "Writing schema...")
  (p.write s (some c)).recover fun e =>
    match e with
    | .creation results => reportCreation s.console results
    | _ => Run.reporting s.console "Failed to write schema: " (Run.fail e)

def succeed (console : Console) (c : ClusterSchema) : Destination → Run Exit Unit
  | .file path =>
    Run.say console (.success ("Wrote " ++ Text.ofNat c.size ++ " table(s) to " ++ path ++ "."))
  | .bigtable _ _ =>
    Run.say console (.success ("Created " ++ Text.ofNat c.size ++ " table(s) in Bigtable."))

def run (s : Surroundings) (command : TransferCommand) : Run Exit Unit := do
  let t ← accept s.console command.options
  let p ← prepare s t
  let c ← plan s p
  present s t c
  endDryRun s.console command.dryRun
  consent s command.yes c t.destination
  write s p c
  succeed s.console c t.destination

end TransferCommand

end SchemaTransfer
