import SchemaTransfer.Bigtable.ResourceId
import SchemaTransfer.Run.World
import SchemaTransfer.Schema.Cluster

/-!
# Creating tables

Tables are created one by one. A table that cannot be created does not keep the others from being
created; afterwards there is one result for each.
-/
namespace SchemaTransfer

namespace Bigtable

/-- Makes a client and chooses an instance. -/
def Service.connect (service : Service) (project instanceId : Text) : Run Failure Unit := fun w =>
  let w := w.note (.client (resourceId project "projects"))
  match service.refusesClient with
  | some (.credentials reason) => (.error (.credentials reason), w)
  | some (.other fault) => (.error (.outside fault), w)
  | none => (.ok (), w.note (.chooseInstance (resourceId instanceId "instances")))

/-- Asks for a table. -/
def Service.put (service : Service) (r : Request) : Run Fault Unit := fun w =>
  let asked := w.note (.request r)
  match service.refuses w.requests w.tables r with
  | some fault => (.error fault, asked)
  | none => (.ok (), { asked with tables := asked.tables ++ [r] }.note (.created r))

/-- The families of a table with their rules, up to the first that has none because of an error. -/
def familyRules : List (Text × Config) → Except Failure (List (Text × Option Retention))
  | [] => .ok []
  | (family, config) :: rest => do
    let rule ← config.retention?
    return (family, rule) :: (← familyRules rest)

def requestFor (t : TableSchema) : Except Failure Request := do
  let families ← familyRules t.families.entries
  return ⟨t.name, t.splits, families⟩

/-- Creates a table with its families and splits. -/
def Service.createTable (service : Service) (t : TableSchema) : Run Failure Unit := do
  let r ← Run.ofExcept (requestFor t)
  match ← (service.put r).result with
  | .ok () => return
  | .error (.alreadyExists _) => Run.fail (.tableExists t.name)
  | .error fault => Run.fail (.outside fault)

end Bigtable

/-- Creates tables in order by the operation `create` on some state, which `note` records events
in. -/
def createEach {σ : Type} (note : Event → σ → σ)
    (create : TableSchema → σ → Except Failure Unit × σ) :
    List TableSchema → σ → List CreateResult × σ
  | [], s => ([], s)
  | t :: rest, s =>
    match create t s with
    | (.ok (), s) =>
      let message := "Created table " ++ t.name ++ " in Bigtable."
      let (results, s) := createEach note create rest (note (.log .info message) s)
      (⟨t.name, none⟩ :: results, s)
    | (.error e, s) =>
      let message := "Failed to create table " ++ t.name ++ ": " ++ e.message
      let (results, s) := createEach note create rest (note (.log .error message) s)
      (⟨t.name, some e.message⟩ :: results, s)

namespace Bigtable

/-- Creates every table of a definition. -/
def Service.createTables (service : Service) (c : Option ClusterSchema) :
    Run Failure (List CreateResult) := fun w =>
  match c with
  | none => (.error .noDefinition, w)
  | some c =>
    let (results, w) := createEach (fun e w => w.note e) service.createTable c.tables w
    (.ok results, w)

/-- Creates every table of a definition; it is a failure if one could not be created. -/
def Service.write (service : Service) (c : Option ClusterSchema) : Run Failure Unit := do
  let results ← service.createTables c
  if (failedTables results).isEmpty then return else Run.fail (.creation results)

end Bigtable

end SchemaTransfer
