import SchemaTransfer.Console.Listing
import SchemaTransfer.Proofs.Json.KeyOrder
import SchemaTransfer.Proofs.Schema.RoundTrip

/-!
# What the listings of a schema show

A schema has one listing with a row for each table and one with a row for each family, both in the
order of the schema. A configuration that was read from a file is shown as JSON, of which it is read
again up to the order of its keys.
-/
namespace SchemaTransfer

/-- What is shown of some names: they are joined, and a dash stands where that shows nothing. -/
inductive NamesCell : List Text → Text → Prop
  | dash {names : List Text} (h : names = [] ∨ names = [[]]) : NamesCell names "-"
  | joined {names : List Text} (h : names ≠ []) (h' : names ≠ [[]]) :
    NamesCell names (Text.join ", " names)

/-- What is shown of the splits of a table: the first one and the last one, if there are any. -/
inductive RangeCell : List Bytes → Text → Prop
  | none : RangeCell [] []
  | range {splits : List Bytes} {first last : Bytes} (hfirst : splits.head? = some first)
    (hlast : splits.getLast? = some last) :
    RangeCell splits (rowKeyText first ++ " … " ++ rowKeyText last)

/-- A row shows a table: its name, its families, the number of its splits and their range. -/
inductive TableRow (t : TableSchema) : List Text → Prop
  | intro {families range : Text} (hfamilies : NamesCell t.families.keys families)
    (hrange : RangeCell t.splits range) :
    TableRow t [t.name, families, Text.ofNat t.splits.length, range]

/-- A family of a table. -/
structure FamilyOf where
  table : Text
  family : Text
  config : Config

/-- The families of some tables, table by table. -/
def familiesOf (tables : List TableSchema) : List FamilyOf :=
  tables.flatMap fun t => t.families.entries.map fun e => ⟨t.name, e.1, e.2⟩

/-- A row shows a family: the names and JSON, of which the configuration is read up to the order of
its keys. -/
inductive FamilyRow (f : FamilyOf) : List Text → Prop
  | intro {cell : Text} {v w : Json} (hconfig : Config.toJson f.config = .ok v)
    (hread : Json.read cell = .ok w) (hsame : v.Reordered w) :
    FamilyRow f [f.table, f.family, cell]

/-! ## Cells -/

theorem Text.join_eq_nil_iff {separator : Text} (h : separator ≠ []) {names : List Text} :
    Text.join separator names = [] ↔ names = [] ∨ names = [[]] := by
  match names with
  | [] => simp [join]
  | [t] => simp [join]
  | t :: u :: rest => simp [join, h]

theorem TableSchema.namesCell_familiesCell (t : TableSchema) :
    NamesCell t.families.keys t.familiesCell := by
  have hseparator : (", " : Text) ≠ [] := by decide
  rw [familiesCell]
  split
  · next h => exact .dash ((Text.join_eq_nil_iff hseparator).mp (List.isEmpty_iff.mp h))
  · next h =>
    have hnames : ¬ (t.families.keys = [] ∨ t.families.keys = [[]]) := by
      rwa [← Text.join_eq_nil_iff hseparator, ← List.isEmpty_iff]
    exact .joined (fun hnil => hnames (Or.inl hnil)) fun hnil => hnames (Or.inr hnil)

theorem TableSchema.rangeCell_splitRangeCell (t : TableSchema) :
    RangeCell t.splits t.splitRangeCell := by
  rw [splitRangeCell]
  split
  · next hfirst hlast => exact .range hfirst hlast
  · next hnone =>
    cases hsplits : t.splits with
    | nil => exact .none
    | cons key rest =>
      rw [hsplits] at hnone
      exact absurd List.getLast?_cons (hnone key _ rfl)

theorem TableSchema.tableRow (t : TableSchema) : TableRow t t.row :=
  .intro t.namesCell_familiesCell t.rangeCell_splitRangeCell

theorem Config.Portable.portable_asJson {c : Config} (h : Portable c) : (asJson c).Portable := by
  have hkeys : Entries.keys (c.entries.map fun e => (e.1, e.2.asJson)) = Entries.keys c.entries := by
    simp [Entries.keys]
  rw [asJson, Json.portable_object, hkeys]
  refine ⟨c.nodup, fun key hkey => ?_, List.forall_mem_map.mpr fun e he => ?_⟩
  · obtain ⟨value, he⟩ := Entries.mem_keys.mp hkey
    exact (h _ he).1
  · obtain ⟨-, v, hv, hp⟩ := h e he
    rw [hv]
    exact hp

theorem portable_of_mem_familiesOf {c : ClusterSchema} (h : c.Portable) {f : FamilyOf}
    (hf : f ∈ familiesOf c.tables) : Config.Portable f.config := by
  obtain ⟨t, ht, hf⟩ := List.mem_flatMap.mp hf
  obtain ⟨e, he, rfl⟩ := List.mem_map.mp hf
  exact ((h t ht).families e he).2

/-- The row of a family. -/
def FamilyOf.row (f : FamilyOf) : List Text := [f.table, f.family, Config.shown f.config]

theorem familyRow (f : FamilyOf) (h : Config.Portable f.config) : FamilyRow f f.row := by
  have hjson := Config.toJson_eq h.writable
  obtain ⟨w, hread, hsame⟩ := Json.read_shown h.portable_asJson
  rw [FamilyOf.row, Config.shown, hjson]
  exact .intro hjson hread hsame

/-! ## Listings -/

namespace Listing

theorem rows_ofTables (title : Text) (c : ClusterSchema) :
    List.Forall₂ TableRow c.tables (ofTables title c).rows :=
  List.forall₂_map_right_iff.mpr (List.forall₂_same.mpr fun t _ => t.tableRow)

theorem rows_ofFamilies_eq (title : Text) (c : ClusterSchema) :
    (ofFamilies title c).rows = (familiesOf c.tables).map FamilyOf.row := by
  simp only [familiesOf, List.map_flatMap, List.map_map]
  rfl

theorem rows_ofFamilies (title : Text) {c : ClusterSchema} (h : c.Portable) :
    List.Forall₂ FamilyRow (familiesOf c.tables) (ofFamilies title c).rows := by
  rw [rows_ofFamilies_eq]
  exact List.forall₂_map_right_iff.mpr
    (List.forall₂_same.mpr fun f hf => familyRow f (portable_of_mem_familiesOf h hf))

end Listing

end SchemaTransfer
