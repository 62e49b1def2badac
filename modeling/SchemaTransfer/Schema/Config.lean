import SchemaTransfer.Json.Value

/-!
# Configuration of column families
-/
namespace SchemaTransfer

/-- What a mapping may have as a key. -/
inductive Foreign.Key
  | text (t : Text)
  | null
  | bool (b : Bool)
  | int (i : Int)
  | double (d : Double)
  /-- A key of a type that members of a JSON object can not have. -/
  | other (type : Text)

/-- A value that need not be JSON, though parts of it may be. -/
inductive Foreign
  | json (v : Json)
  /-- A value of a type that JSON has no place for. -/
  | other (type : Text)
  | list (items : List Foreign)
  | mapping (members : List (Foreign.Key × Foreign))

/-- A configured value: a JSON value, raw bytes as a cluster may deliver them, or any other value.
Of that we know besides its form with which others it counts as equal, all those of one `kin`, and
the whole number that it converts to, if any. -/
inductive ConfigValue
  | json (v : Json)
  | bytes (b : Bytes)
  | foreign (kin : Nat) (whole : Option Int) (form : Foreign)

abbrev Config := Dict Text ConfigValue

/-- The column families of a table with their configurations. -/
abbrev Families := Dict Text Config

end SchemaTransfer
