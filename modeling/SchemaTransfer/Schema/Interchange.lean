import SchemaTransfer.Json.Writer
import SchemaTransfer.Schema.Cluster
import SchemaTransfer.Schema.SplitKey

/-!
# The interchange format

A cluster schema is written as a JSON object that holds the list of its tables. When one is read, a
list or an object that is missing, null, false, zero or empty counts as empty, unknown members are
passed over, and the first table that is malformed or repeats a name decides the error.
-/
namespace SchemaTransfer

def tablesKey : Text := "tableSchemaDefinitions"

def nameKey : Text := "name"

def familiesKey : Text := "columnFamilies"

def splitsKey : Text := "splits"

/-! ## Writing -/

/-- A value that can be put into text. -/
def Json.checked (v : Json) : Except Failure Json :=
  if v.Everywhere Json.DigitsFit then .ok v else .error .longInteger

/-- The name of a member; a key that is no text counts as its JSON text. -/
def Foreign.Key.toText : Foreign.Key → Except Failure Text
  | .text t => .ok t
  | .null => .ok (Json.compact .null)
  | .bool b => .ok (Json.bool b).compact
  | .int i => (Json.int i).checked.map Json.compact
  | .double d => .ok (Json.double d).compact
  | .other type => .error (.badKey type)

namespace Foreign

mutual

/-- The value as JSON, or what stands in the way first. -/
def toJson : Foreign → Except Failure Json
  | .json v => v.checked
  | .other type => .error (.noJson type)
  | .list items => (itemsToJson items).map Json.array
  | .mapping members => (membersToJson members).map Json.object

def itemsToJson : List Foreign → Except Failure (List Json)
  | [] => .ok []
  | v :: rest => do
    let v ← toJson v
    return v :: (← itemsToJson rest)

def membersToJson : List (Foreign.Key × Foreign) → Except Failure (List (Text × Json))
  | [] => .ok []
  | (key, v) :: rest => do
    let key ← key.toText
    let v ← toJson v
    return (key, v) :: (← membersToJson rest)

end

end Foreign

def ConfigValue.toJson : ConfigValue → Except Failure Json
  | .json v => v.checked
  | .bytes _ => .error (.noJson "bytes")
  | .foreign _ _ form => form.toJson

/-- Entries with their values as JSON, up to the first that has none. -/
def entriesToJson {α : Type} (toJson : α → Except Failure Json) (entries : List (Text × α)) :
    Except Failure (List (Text × Json)) :=
  entries.mapM fun e => (toJson e.2).map (e.1, ·)

def Config.toJson (c : Config) : Except Failure Json :=
  (entriesToJson ConfigValue.toJson c.entries).map Json.object

def Families.toJson (f : Families) : Except Failure Json :=
  (entriesToJson Config.toJson f.entries).map Json.object

def TableSchema.toJson (t : TableSchema) : Except Failure Json :=
  (Families.toJson t.families).map fun families =>
    .object [(nameKey, .string t.name), (familiesKey, families),
      (splitsKey, .array (t.splits.map SplitKey.encode))]

def ClusterSchema.toJson (c : ClusterSchema) : Except Failure Json :=
  (c.tables.mapM TableSchema.toJson).map fun tables => .object [(tablesKey, .array tables)]

/-- The text of a schema file. -/
def ClusterSchema.toText (c : ClusterSchema) : Except Failure Text :=
  c.toJson.map fun v => v.pretty ++ "\n"

/-- The bytes of a schema file. -/
def ClusterSchema.toBytes (c : ClusterSchema) : Except Failure Bytes :=
  c.toText.map fun t => (Utf8.encode? t).getD []

/-! ## Reading -/

def Config.ofMembers (members : List (Text × Json)) : Config :=
  Dict.ofList (members.map fun m => (m.1, .json m.2))

/-- The families of a table, up to the first whose configuration is no object. -/
def familyEntries (table : Text) : List (Text × Json) → Except Failure (List (Text × Config))
  | [] => .ok []
  | (family, .object members) :: rest =>
    (familyEntries table rest).map ((family, Config.ofMembers members) :: ·)
  | (family, _) :: _ => .error (.decode (.configNotObject family table))

def familiesOfJson (table : Text) (v : Json) : Except Failure Families :=
  if v.isMissing then .ok ∅
  else match v with
    | .object members => (familyEntries table members).map Dict.ofList
    | _ => .error (.decode (.familiesNotObject table))

def splitsOfJson (table : Text) (v : Json) : Except Failure (List Bytes) :=
  if v.isMissing then .ok []
  else match v with
    | .array items => SplitKey.decodeAll items
    | _ => .error (.decode (.splitsNotList table))

def TableSchema.ofJson : Json → Except Failure TableSchema
  | .object members =>
    match Json.member nameKey members with
    | .string (c :: rest) => do
      let name := c :: rest
      let families ← familiesOfJson name (Json.member familiesKey members)
      let splits ← splitsOfJson name (Json.member splitsKey members)
      (TableSchema.create (some name) families splits).mapError fun e => .decode (.definition e)
    | _ => .error (.decode .missingName)
  | _ => .error (.decode .tableNotObject)

namespace ClusterSchema

/-- The cluster with the tables of a list added, up to the first that cannot be. -/
def addJson (c : ClusterSchema) : List Json → Except Failure ClusterSchema
  | [] => .ok c
  | v :: rest => do
    let t ← TableSchema.ofJson v
    let c ← (c.add t).mapError fun e => .decode (.definition e)
    addJson c rest

def ofJson : Json → Except Failure ClusterSchema
  | .object members =>
    let v := Json.member tablesKey members
    if v.isMissing then .ok empty
    else match v with
      | .array items => empty.addJson items
      | _ => .error (.decode .tablesNotList)
  | _ => .error (.decode .schemaNotObject)

def ofText (t : Text) : Except Failure ClusterSchema :=
  match Json.read t with
  | .error (.malformed cause place) => .error (.decode (.schemaText cause place))
  | .error (.tooManyDigits count) => .error (.tooManyDigits count)
  | .ok v => ofJson v

end ClusterSchema

/-! ## Reading with little room -/

/-- What `parse` makes of a text, unless there is no room for as deep a text. -/
def Json.within {α : Type} (room : Nat) (parse : Text → Except Failure α) (t : Text) :
    Except Failure α :=
  match Json.overflow? room t with
  | some container => .error (.tooDeep container)
  | none => parse t

end SchemaTransfer
