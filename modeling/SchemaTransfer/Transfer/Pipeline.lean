import SchemaTransfer.Bigtable.Creation
import SchemaTransfer.HBase.Catalogue
import SchemaTransfer.Schema.Interchange
import SchemaTransfer.Schema.Renaming
import SchemaTransfer.Transfer.Options

/-!
# From source to destination

A transfer reads a definition, renames its tables and writes it. Connections are opened before
anything is read, the one to the source last, so that no failure before it leaves it open.
-/
namespace SchemaTransfer

/-- Reads the definition in a schema file, with `parse` for its text. -/
def readSchemaFileBy (parse : Text → Except Failure ClusterSchema) (path : Path) :
    Run Failure ClusterSchema := do
  Run.log .info ("Reading schema from file " ++ path.text ++ ".")
  let t ← Run.readText path (.readSchema path)
  Run.ofExcept (parse t)

def readSchemaFile (path : Path) : Run Failure ClusterSchema :=
  readSchemaFileBy ClusterSchema.ofText path

/-- Writes a definition to a schema file, which takes the place of what the file held, with
`content` for what it is to hold. -/
def writeSchemaFileBy (content : ClusterSchema → Except Failure Bytes) (path : Path)
    (c : Option ClusterSchema) : Run Failure Unit := do
  match c with
  | none => Run.fail .noDefinition
  | some c =>
    let l ← Run.openFile path (.writeSchema path)
    let b ← Run.ofExcept (content c)
    Run.writeFile l (.writeSchema path) b
    Run.log .info ("Wrote schema to file " ++ path.text ++ ".")

def writeSchemaFile (path : Path) (c : Option ClusterSchema) : Run Failure Unit :=
  writeSchemaFileBy ClusterSchema.toBytes path c

inductive Pipeline.Input
  | file (path : Path)
  | server (filter : Option Text)

inductive Pipeline.Output
  | file (path : Path)
  | bigtable

/-- A transfer whose connections are open. -/
structure Pipeline where
  input : Pipeline.Input
  newNames : Option Renaming
  output : Pipeline.Output

namespace Pipeline

def loadNames : Option Text → Run Failure (Option Renaming)
  | none => return none
  | some path => do
    let r ← Renaming.load (.ofText path)
    r.announce
    return some r

def openOutput (s : Surroundings) : Destination → Run Failure Output
  | .file path => return .file (.ofText path)
  | .bigtable project instanceId => do
    s.bigtable.connect project instanceId
    return .bigtable

def openInput (s : Surroundings) : Origin → Run Failure Input
  | .file path => return .file (.ofText path)
  | .server host portNumber filter => do
    s.hbase.connect host portNumber
    return .server filter

/-- Makes a transfer ready. -/
def prepare (s : Surroundings) (t : Transfer) : Run Failure Pipeline := do
  let newNames ← loadNames t.mapping
  let output ← openOutput s t.destination
  let input ← openInput s t.origin
  return ⟨input, newNames, output⟩

def readInput (s : Surroundings) : Input → Run Failure ClusterSchema
  | .file path => readSchemaFile path
  | .server filter => s.hbase.source.read filter

def rename : Option Renaming → ClusterSchema → Run Failure ClusterSchema
  | none, c => return c
  | some r, c => r.apply c

/-- Says how many tables were read or written. -/
def report (s : Surroundings) (done : Text) (c : ClusterSchema) : Run Failure Unit :=
  Run.log .info
    ("[" ++ s.runId ++ "] " ++ done ++ " schema with " ++ Text.ofNat c.size ++ " tables.")

/-- The definition as it will be written. -/
def plan (s : Surroundings) (p : Pipeline) : Run Failure ClusterSchema := do
  let c ← readInput s p.input
  report s "Read" c
  rename p.newNames c

def writeOutput (s : Surroundings) (c : Option ClusterSchema) : Output → Run Failure Unit
  | .file path => writeSchemaFile path c
  | .bigtable => s.bigtable.write c

def write (s : Surroundings) (p : Pipeline) (c : Option ClusterSchema) : Run Failure Unit := do
  writeOutput s c p.output
  report s "Wrote" (c.getD .empty)

/-- Reads, renames and writes. -/
def run (s : Surroundings) (p : Pipeline) : Run Failure Unit := do
  let c ← plan s p
  write s p (some c)

end Pipeline

end SchemaTransfer
