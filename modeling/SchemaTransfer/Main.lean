import SchemaTransfer.Command.Program
import SchemaTransfer.Console.Markup
import SchemaTransfer.Console.Screen

/-!
# The command line

Reads the arguments, the environment and the files that a command names, runs the command on them,
and then writes the files that it wrote and prints what it showed. There is no client for a live
cluster or instance here: every connection is refused, so transfers go from file to file.
-/
namespace SchemaTransfer.Main

def ofArgument (s : String) : Text := .ofString s

def toArgument (t : Text) : String := String.ofList (t.map fun c => Char.ofNat c.val)

def usage : String :=
  "Usage: hbschema [-v] translate SOURCE DESTINATION [--mapping-file FILE] [--dry-run] [--yes]\n" ++
  "       hbschema [-v] show [--name REGEX] FILE\n\n" ++
  "Source: --hbase-host HOST --hbase-port N [--table-filter REGEX], or --input-file FILE.\n" ++
  "Destination: --project-id ID --instance-id ID, or --output-file FILE."

/-! ## Files -/

def nameOf (l : Location) : String :=
  toArgument ("/" ++ Text.join "/" (l.map FileName.toText))

/-- What is found at a place. -/
inductive Sight
  | nothing
  | node (n : Node)
  | refused (fault : FileFault)

def look (l : Location) : IO Sight := do
  try
    let content ← IO.FS.readBinFile (nameOf l)
    return .node (.file content.toList)
  catch
    | .inappropriateType _ _ _ => return .node .directory
    | .permissionDenied _ number description =>
      return .refused (.refused number.toNat (ofArgument description))
    | _ => return .nothing

def closeAt (files : FileSystem) (l : Location) (fault : FileFault) : FileSystem :=
  { files with hindrance? := fun m => if m = l then some (.closed fault) else files.hindrance? m }

/-- Takes over what stands along the way to a place. -/
def takeOver (files : FileSystem) (done : Location) : List Text → IO FileSystem
  | [] => return files
  | part :: rest => do
    let l := if part = ".." then done.dropLast else done ++ [FileName.ofText part]
    match ← look l with
    | .node node => takeOver (if l = [] then files else files.put l node) l rest
    | .refused fault =>
      let node := if rest.isEmpty then .file [] else .directory
      return closeAt (if l = [] then files else files.put l node) l fault
    | .nothing => return files

/-- The files that a command may read or write. -/
def pathsOf : Command → List Path
  | .transfer command =>
    let o := command.options
    ([o.inputFile, o.outputFile, o.mappingFile].filterMap id).map Path.ofText
  | .show command => [.ofText command.file]
  | .help | .completion => []

def takeOverAll (files : FileSystem) : List Path → IO FileSystem
  | [] => return files
  | p :: rest => do
    let start := if p.isAbsolute then [] else files.workingDirectory
    takeOverAll (← takeOver files start p.parts) rest

def workingDirectory : IO Location := do
  let directory ← IO.currentDir
  return (Path.ofText (ofArgument directory.toString)).parts.map FileName.ofText

/-- Writes the files that were opened. -/
def giveBack (w : World) : IO Unit :=
  w.events.forM fun e =>
    match e with
    | .opened l => IO.FS.writeBinFile (nameOf l) ⟨((w.files.file? l).getD []).toArray⟩
    | _ => pure ()

/-! ## Surroundings -/

def variableNames : List Text := CommandLine.transferValues.map CommandLine.variableFor

def environment : IO Environment := do
  let values ← variableNames.mapM fun name => do
    return (name, (← IO.getEnv (toArgument name)).map ofArgument)
  return fun name => (values.lookup name).join

def surroundings : IO Surroundings := do
  let n ← IO.rand 0 0xFFFFFFFF
  return {
    hbase := {
      refuses := fun _ _ => some (.system none "no client for live clusters")
      answer := fun _ _ => .error (.system none "no client for live clusters") }
    bigtable := {
      refusesClient := some (.credentials "no client for live instances")
      refuses := fun _ _ _ => some (.runtime "no client for live instances") }
    answer := none
    runId := Text.hex 8 n
    console := .markup }

/-! ## Running -/

def present (e : Event) : IO Unit := do
  match Screen.logText? e with
  | some t => IO.eprintln (toArgument t)
  | none => pure ()
  match Screen.eventText? .markup e with
  | some t => IO.println (toArgument t)
  | none => pure ()
  if e = .usage then IO.println usage

def exitCode : Exit → IO UInt32
  | .code n => return UInt32.ofNat n
  | .raised e => do
    IO.eprintln (toArgument e.message)
    return 1

def runLine (line : CommandLine) : IO UInt32 := do
  if let .help := line.command then IO.println usage
  let files ← takeOverAll (.empty (← workingDirectory)) (pathsOf line.command)
  let outcome := line.run (← surroundings) ⟨files, [], []⟩
  giveBack outcome.after
  outcome.shown.forM present
  exitCode outcome.exit

def run (arguments : List String) : IO UInt32 := do
  match CommandLine.read (← environment) (arguments.map ofArgument) with
  | .ok line => runLine line
  | .error _ =>
    IO.eprintln usage
    return 2

end SchemaTransfer.Main

def main (arguments : List String) : IO UInt32 := SchemaTransfer.Main.run arguments
