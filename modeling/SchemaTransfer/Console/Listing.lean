import SchemaTransfer.Console.Line
import SchemaTransfer.Console.RowKey
import SchemaTransfer.Schema.Interchange

/-!
# Listings

The tables that commands show: the tables of a schema, their families, and how their creation
went.
-/
namespace SchemaTransfer

structure Listing where
  title : Text
  header : List Text
  rows : List (List Text)

/-- The texts in the order in which they are laid out: column by column, and the title last. -/
def Listing.texts (l : Listing) : List Text :=
  ((List.range l.header.length).flatMap fun i => (l.header :: l.rows).filterMap fun row => row[i]?) ++
    [l.title]

namespace TableSchema

/-- The names of the families, or a dash if there is nothing to show. -/
def familiesCell (t : TableSchema) : Text :=
  let names := Text.join ", " t.families.keys
  if names.isEmpty then "-" else names

/-- The first and the last split. -/
def splitRangeCell (t : TableSchema) : Text :=
  match t.splits.head?, t.splits.getLast? with
  | some first, some last => rowKeyText first ++ " … " ++ rowKeyText last
  | _, _ => ""

def row (t : TableSchema) : List Text :=
  [t.name, t.familiesCell, Text.ofNat t.splits.length, t.splitRangeCell]

end TableSchema

/-- A configuration on one line, with its keys in order at every depth. There is nothing to show of
one that has no JSON text, which no schema file can give. -/
def Config.shown (c : Config) : Text :=
  match Config.toJson c with
  | .ok v => v.sortKeys.compact
  | .error _ => []

namespace TableSchema

def familyRows (t : TableSchema) : List (List Text) :=
  t.families.entries.map fun e => [t.name, e.1, Config.shown e.2]

end TableSchema

namespace CreateResult

def row (r : CreateResult) : List Text :=
  [r.table,
    match r.error with
    | none => Line.styled "ok" "CREATED"
    | some message => Line.styled "err" "FAIL" ++ " " ++ message]

end CreateResult

namespace Listing

/-- One row for each table. -/
def ofTables (title : Text) (c : ClusterSchema) : Listing where
  title := title
  header := ["Table", "Column families", "Splits", "Split range"]
  rows := c.tables.map TableSchema.row

/-- One row for each family of each table. -/
def ofFamilies (title : Text) (c : ClusterSchema) : Listing where
  title := title
  header := ["Table", "Family", "Configuration"]
  rows := c.tables.flatMap TableSchema.familyRows

/-- One row for each result. -/
def ofResults (results : List CreateResult) : Listing where
  title := "Create results"
  header := ["Table", "Result"]
  rows := results.map CreateResult.row

end Listing

end SchemaTransfer
