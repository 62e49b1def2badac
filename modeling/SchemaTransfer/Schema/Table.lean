import SchemaTransfer.Failure
import SchemaTransfer.Json.Likeness
import SchemaTransfer.Schema.Config

/-!
# Table schemas
-/
namespace SchemaTransfer

/-- The schema of a table: its name, its column families, and the row keys at which its regions
begin. -/
structure TableSchema where
  name : Text
  families : Families
  splits : List Bytes

namespace TableSchema

/-- What holds of every table that was made: it has a name, and no split is the start of the
keyspace. -/
structure Valid (t : TableSchema) : Prop where
  name_ne : t.name ≠ []
  split_ne : [] ∉ t.splits

/-- A table; `name` is `none` where something other than text was given. -/
def create (name : Option Text) (families : Families) (splits : List Bytes) :
    Except DefinitionError TableSchema :=
  match name with
  | none | some [] => .error .unnamedTable
  | some (c :: rest) =>
    if [] ∈ splits then .error (.emptySplit (c :: rest)) else .ok ⟨c :: rest, families, splits⟩

def renamed (t : TableSchema) (name : Text) : Except DefinitionError TableSchema :=
  create (some name) t.families t.splits

theorem create_eq_ok {name : Option Text} {families : Families} {splits : List Bytes}
    {t : TableSchema} (h : create name families splits = .ok t) :
    name = some t.name ∧ t.families = families ∧ t.splits = splits ∧ t.Valid := by
  unfold create at h
  split at h
  · cases h
  · cases h
  · split at h
    · cases h
    · next hs =>
      cases h
      exact ⟨rfl, rfl, rfl, ⟨by simp, hs⟩⟩

end TableSchema

/-! ## Equality -/

namespace ConfigValue

/-- Whether two configured values count as equal. -/
def alike : ConfigValue → ConfigValue → Bool
  | .json v, .json w => v.alike w
  | .bytes a, .bytes b => a = b
  | .foreign kin whole _, .foreign kin' whole' _ => kin = kin' && whole = whole'
  | _, _ => false

end ConfigValue

/-- Whether two dictionaries have the same keys, with values that `same` accepts. -/
def Dict.alike {α : Type} (same : α → α → Bool) (d e : Dict Text α) : Bool :=
  d.entries.length = e.entries.length && d.entries.all fun entry =>
    match e.get? entry.1 with
    | some v => same entry.2 v
    | none => false

/-- Whether two tables count as equal; the order of families and of settings does not matter. -/
def TableSchema.alike (a b : TableSchema) : Bool :=
  a.name = b.name && a.families.alike (Dict.alike ConfigValue.alike) b.families &&
    a.splits = b.splits

end SchemaTransfer
