import SchemaTransfer.Run.World
import SchemaTransfer.Schema.Cluster

/-!
# Reading a live cluster

A source lists its tables and the regions of each. It is closed after reading, whatever happened.
-/
namespace SchemaTransfer

/-- A table as a source lists it. -/
structure ListedTable where
  name : Text
  families : Families

structure Source where
  /-- The tables whose name a pattern matches in full; `none` if there are none to speak of. -/
  listTables : (pattern : Text) → Run Failure (Option (List ListedTable))
  /-- The start keys of the regions of a table. -/
  regionStartKeys : (table : Text) → Run Failure (Option (List Bytes))
  close : Run Failure Unit

namespace Source

/-- The pattern of a filter; without one every table is wanted. -/
def patternOf : Option Text → Text
  | none | some [] => ".*"
  | some (c :: rest) => c :: rest

def tables (s : Source) (pattern : Text) : Run Failure (List ListedTable) := do
  match ← s.listTables pattern with
  | none | some [] =>
    Run.log .info ("Found no tables matching '" ++ pattern ++ "'.")
    return []
  | some (t :: rest) => return t :: rest

/-- The start keys that are splits: the first region begins at the empty key, which is none. -/
def splits (s : Source) (table : Text) : Run Failure (List Bytes) := do
  let keys := (← s.regionStartKeys table).getD []
  let splits := keys.filter (· ≠ [])
  Run.log .debug
    ("Found " ++ Text.ofNat splits.length ++ " splits for table " ++ table ++ ".")
  return splits

/-- The cluster with the listed tables added one by one. -/
def collect (s : Source) (c : ClusterSchema) : List ListedTable → Run Failure ClusterSchema
  | [] => return c
  | t :: rest => do
    Run.log .debug ("Found table " ++ t.name ++ " in HBase.")
    let splits ← s.splits t.name
    let schema ←
      Run.ofExcept ((TableSchema.create (some t.name) t.families splits).mapError .definition)
    let c ← Run.ofExcept ((c.add schema).mapError .definition)
    collect s c rest

def read (s : Source) (filter : Option Text) : Run Failure ClusterSchema := do
  Run.log .info "Reading schema from HBase."
  Run.ensuring
    (do
      let tables ← s.tables (patternOf filter)
      s.collect .empty tables)
    s.close

end Source

end SchemaTransfer
