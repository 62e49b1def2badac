import SchemaTransfer.File.Access
import SchemaTransfer.Schema.Cluster

/-!
# Renaming tables
-/
namespace SchemaTransfer

/-- The new names of tables by their old ones. -/
abbrev Renaming := Dict Text Text

namespace Renaming

/-- The entries of a mapping, up to the first whose value is no name. -/
def entriesOfJson (path : Path) : List (Text × Json) → Except DecodeError (List (Text × Text))
  | [] => .ok []
  | (old, .string (c :: rest)) :: more =>
    (entriesOfJson path more).map ((old, c :: rest) :: ·)
  | (old, _) :: _ => .error (.badMapping old path)

def ofText (path : Path) (t : Text) : Except Failure Renaming :=
  match Json.read t with
  | .error (.malformed cause place) => .error (.decode (.mappingText path cause place))
  | .error (.tooManyDigits count) => .error (.tooManyDigits count)
  | .ok (.object members) =>
    ((entriesOfJson path members).map Dict.ofList).mapError .decode
  | .ok _ => .error (.decode (.mappingNotObject path))

/-- Reads a mapping file, with `parse` for its text. -/
def loadBy (parse : Text → Except Failure Renaming) (path : Path) : Run Failure Renaming := do
  let t ← Run.readText path (.readMapping path)
  Run.ofExcept (parse t)

def load (path : Path) : Run Failure Renaming := loadBy (ofText path) path

/-- How a renaming is shown. -/
def shown (r : Renaming) : Text :=
  (Json.object (r.entries.map fun e => (e.1, .string e.2))).shown

/-- A renaming taken into use. -/
def announce (r : Renaming) : Run Failure Unit :=
  Run.log .info ("Using table name mapping: " ++ shown r)

/-- A table under its new name, if it has one. -/
def renameTable (r : Renaming) (t : TableSchema) : Run Failure TableSchema :=
  match r.get? t.name with
  | none => return t
  | some name => do
    Run.log .info ("Renaming table " ++ t.name ++ " to " ++ name ++ ".")
    Run.ofExcept ((t.renamed name).mapError .definition)

def applyFrom (r : Renaming) (done : ClusterSchema) : List TableSchema → Run Failure ClusterSchema
  | [] => return done
  | t :: rest => do
    let t ← renameTable r t
    let done ← Run.ofExcept ((done.add t).mapError .definition)
    applyFrom r done rest

/-- The cluster with every table under its new name. -/
def apply (r : Renaming) (c : ClusterSchema) : Run Failure ClusterSchema :=
  applyFrom r .empty c.tables

end Renaming

end SchemaTransfer
