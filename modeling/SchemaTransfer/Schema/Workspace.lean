import SchemaTransfer.Schema.Interchange
import SchemaTransfer.Schema.Renaming

/-!
# Workspaces

Tables and clusters that are made one from another, each kept under an id. A step that fails leaves
the workspace as it was.
-/
namespace SchemaTransfer

structure Workspace where
  tables : Dict Text TableSchema
  clusters : Dict Text ClusterSchema

namespace Workspace

def empty : Workspace := ⟨∅, ∅⟩

inductive Step
  | createTable (id : Text) (name : Option Text) (families : Families) (splits : List Bytes)
  | readTable (id : Text) (v : Json)
  | renameTable (id source : Text) (name : Option Text)
  | collect (id : Text) (tables : List Text)
  | decodeCluster (id : Text) (v : Json)
  | readCluster (id : Text) (t : Text)
  | add (cluster table : Text)
  | rename (id source : Text) (r : Renaming)

/-- Why a step fails: an id stands for nothing, or what was to be made cannot be. -/
inductive StepError
  | unknown (id : Text)
  | failure (e : Failure)

/-- What a step made, and the id under which it is kept. -/
inductive Product
  | table (id : Text) (t : TableSchema)
  | cluster (id : Text) (c : ClusterSchema)

def table (ws : Workspace) (id : Text) : Except StepError TableSchema :=
  match ws.tables.get? id with
  | some t => .ok t
  | none => .error (.unknown id)

def cluster (ws : Workspace) (id : Text) : Except StepError ClusterSchema :=
  match ws.clusters.get? id with
  | some c => .ok c
  | none => .error (.unknown id)

def keep (ws : Workspace) : Product → Workspace
  | .table id t => { ws with tables := ws.tables.insert id t }
  | .cluster id c => { ws with clusters := ws.clusters.insert id c }

/-- A table, or the reason why it is none. -/
def tableProduct (id : Text) (r : Except Failure TableSchema) : Run StepError Product :=
  Run.ofExcept ((r.map (.table id)).mapError .failure)

def clusterProduct (id : Text) (r : Except Failure ClusterSchema) : Run StepError Product :=
  Run.ofExcept ((r.map (.cluster id)).mapError .failure)

def make (ws : Workspace) : Step → Run StepError Product
  | .createTable id name families splits =>
    tableProduct id ((TableSchema.create name families splits).mapError .definition)
  | .readTable id v => tableProduct id (TableSchema.ofJson v)
  | .renameTable id source name => do
    let t ← Run.ofExcept (ws.table source)
    tableProduct id ((TableSchema.create name t.families t.splits).mapError .definition)
  | .collect id tables => do
    let tables ← Run.ofExcept (tables.mapM ws.table)
    clusterProduct id ((ClusterSchema.ofTables tables).mapError .definition)
  | .decodeCluster id v => clusterProduct id (ClusterSchema.ofJson v)
  | .readCluster id t => clusterProduct id (ClusterSchema.ofText t)
  | .add id table => do
    let c ← Run.ofExcept (ws.cluster id)
    let t ← Run.ofExcept (ws.table table)
    clusterProduct id ((c.add t).mapError .definition)
  | .rename id source r => do
    let c ← Run.ofExcept (ws.cluster source)
    let made : Run Failure ClusterSchema := do
      r.announce
      r.apply c
    let c ← made.recover fun e => Run.fail (.failure e)
    return .cluster id c

/-- The workspace after a step, and what the step made. -/
def apply (ws : Workspace) (step : Step) : Run StepError (Workspace × Product) := do
  let made ← ws.make step
  return (ws.keep made, made)

/-- The workspace after a step that may have failed. -/
def after (ws : Workspace) (step : Step) : Run StepError Workspace := fun w =>
  match ws.apply step w with
  | (.ok (ws, _), w) => (.ok ws, w)
  | (.error _, w) => (.ok ws, w)

/-- The workspace after steps some of which may have failed. -/
def afterAll (ws : Workspace) : List Step → Run StepError Workspace
  | [] => return ws
  | step :: rest => do
    let ws ← ws.after step
    afterAll ws rest

end Workspace

end SchemaTransfer
