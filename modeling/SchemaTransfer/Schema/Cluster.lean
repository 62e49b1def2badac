import SchemaTransfer.Schema.Table

/-!
# Cluster schemas
-/
namespace SchemaTransfer

/-- The schemas of the tables of a cluster, in order. -/
structure ClusterSchema where
  tables : List TableSchema

namespace ClusterSchema

def empty : ClusterSchema := ⟨[]⟩

def names (c : ClusterSchema) : List Text := c.tables.map TableSchema.name

def size (c : ClusterSchema) : Nat := c.tables.length

/-- What holds of every cluster that was made: its tables have distinct names. -/
def Valid (c : ClusterSchema) : Prop := c.names.Nodup

/-- The cluster with one more table at the end; its name must be new. -/
def add (c : ClusterSchema) (t : TableSchema) : Except DefinitionError ClusterSchema :=
  if c.tables.any fun u => u.name = t.name then .error (.duplicateTable t.name)
  else .ok ⟨c.tables ++ [t]⟩

def addAll (c : ClusterSchema) : List TableSchema → Except DefinitionError ClusterSchema
  | [] => .ok c
  | t :: rest =>
    match c.add t with
    | .error e => .error e
    | .ok c => addAll c rest

def ofTables (tables : List TableSchema) : Except DefinitionError ClusterSchema :=
  empty.addAll tables

/-- Whether two clusters count as equal, table by table. -/
def alike (a b : ClusterSchema) : Bool :=
  a.tables.length = b.tables.length && (a.tables.zip b.tables).all fun p => p.1.alike p.2

theorem any_name_iff {c : ClusterSchema} {name : Text} :
    (c.tables.any fun u => u.name = name) = true ↔ name ∈ c.names := by
  simp [names]

theorem add_eq_ok {c d : ClusterSchema} {t : TableSchema} (h : c.add t = .ok d) :
    t.name ∉ c.names ∧ d.tables = c.tables ++ [t] := by
  unfold add at h
  split at h
  · cases h
  · next hn =>
    cases h
    exact ⟨fun hm => hn (any_name_iff.mpr hm), rfl⟩

theorem valid_add {c d : ClusterSchema} {t : TableSchema} (hc : c.Valid) (h : c.add t = .ok d) :
    d.Valid := by
  obtain ⟨hn, ht⟩ := add_eq_ok h
  unfold Valid names at *
  rw [ht, List.map_append, List.nodup_append]
  refine ⟨hc, by simp, ?_⟩
  intro a ha b hb
  simp only [List.map_cons, List.map_nil, List.mem_singleton] at hb
  rintro rfl
  exact hn (hb ▸ ha)

end ClusterSchema

end SchemaTransfer
