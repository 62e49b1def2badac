import SchemaTransfer.Bigtable.Creation
import SchemaTransfer.Proofs.Schema.RoundTrip

/-!
# Requests for tables that went through a file

What a file does to a schema does not show in the request for a table. The keys that retention
rules are read from are ASCII, so no other key becomes one of them when surrogate pairs are joined,
and the bounds under them are numbers or text without such pairs.
-/
namespace SchemaTransfer

/-- A setting that is written to a file and read again with the same meaning as a bound. -/
def ConfigValue.Transferable (cv : ConfigValue) : Prop :=
  ∃ v, cv = .json v ∧ v.Everywhere Json.DigitsFit ∧ v.Everywhere Json.TextsUnpaired

def Config.Transferable (c : Config) : Prop := ∀ e ∈ c.entries, e.2.Transferable

/-- A table whose names come back as they are and whose settings come back with their meaning. -/
structure TableSchema.Transferable (t : TableSchema) : Prop where
  names : t.NamesUnpaired
  settings : ∀ f ∈ t.families.entries, Config.Transferable f.2

def ClusterSchema.Transferable (c : ClusterSchema) : Prop := ∀ t ∈ c.tables, t.Transferable

theorem ClusterSchema.Transferable.writable {c : ClusterSchema} (h : c.Transferable) :
    c.Writable := by
  intro t ht f hf e he
  obtain ⟨v, hv, hdigits, -⟩ := (h t ht).settings f hf e he
  exact ⟨v, hv, hdigits⟩

theorem ClusterSchema.Transferable.namesUnpaired {c : ClusterSchema} (h : c.Transferable) :
    c.NamesUnpaired :=
  fun t ht => (h t ht).names

theorem TableSchema.transferable_of_create {name : Text} {families : Families} {splits : List Bytes}
    {t : TableSchema} (hn : name.Unpaired) (hk : ∀ family ∈ families.keys, family.Unpaired)
    (hs : ∀ f ∈ families.entries, Config.Transferable f.2)
    (h : create (some name) families splits = .ok t) : t.Transferable := by
  obtain ⟨hname, hfamilies, -, -⟩ := create_eq_ok h
  cases hname
  rw [← hfamilies] at hk hs
  exact ⟨⟨hn, hk⟩, hs⟩

theorem ClusterSchema.Transferable.add {c d : ClusterSchema} {t : TableSchema}
    (hc : c.Transferable) (ht : t.Transferable) (h : c.add t = .ok d) : d.Transferable := by
  obtain ⟨-, htables⟩ := add_eq_ok h
  rw [Transferable, htables]
  exact List.forall_mem_append.mpr ⟨hc, List.forall_mem_singleton.mpr ht⟩

/-! ## Bounds -/

theorem ConfigValue.bound?_joined {cv : ConfigValue} (h : cv.Transferable) :
    cv.joined.bound? = cv.bound? := by
  obtain ⟨v, rfl, -, hu⟩ := h
  cases v with
  | string t => rw [joined, Json.joined, Text.joined_eq_self hu.self]
  | array items => rfl
  | object members => rfl
  | _ => rfl

/-- A key of code points up to FFFF, as the keys of bounds are. -/
structure Text.Plane (key : Text) : Prop where
  unpaired : key.Unpaired
  val_lt : ∀ c ∈ key, c.val < 0x10000

theorem Text.Plane.joined_eq_iff {key t : Text} (h : key.Plane) : t.joined = key ↔ t = key := by
  refine ⟨fun ht => Text.eq_of_joined_eq h.val_lt ht, ?_⟩
  rintro rfl
  exact Text.joined_eq_self h.unpaired

theorem Config.get?_joined {key : Text} (hk : key.Plane) (c : Config) :
    (joined c).get? key = (c.get? key).map ConfigValue.joined := by
  rw [joined, Dict.get?_ofList, ← List.map_reverse,
    Entries.get?_map_keys Text.joined ConfigValue.joined fun e _ => hk.joined_eq_iff,
    Entries.get?_reverse c.nodup]
  rfl

theorem Config.positive?_joined {key : Text} (hk : key.Plane) {c : Config} (h : Transferable c) :
    positive? (joined c) key = positive? c key := by
  rw [positive?, positive?, get?_joined hk]
  cases hg : c.get? key with
  | none => rfl
  | some cv =>
    rw [Option.map_some]
    dsimp only
    rw [ConfigValue.bound?_joined (h _ (Dict.mem_of_get?_eq_some hg))]

theorem Config.retention?_joined {c : Config} (h : Transferable c) :
    retention? (joined c) = retention? c := by
  have hversions : Text.Plane "max_versions" := ⟨by decide, by decide⟩
  have hage : Text.Plane "time_to_live" := ⟨by decide, by decide⟩
  rw [retention?, retention?, positive?_joined hversions h, positive?_joined hage h]

/-! ## Requests -/

namespace Bigtable

theorem familyRules_joined {families : List (Text × Config)}
    (h : ∀ f ∈ families, Config.Transferable f.2) :
    familyRules (families.map fun f => (f.1, Config.joined f.2)) = familyRules families := by
  induction families with
  | nil => rfl
  | cons f rest ih =>
    obtain ⟨family, config⟩ := f
    obtain ⟨hf, hrest⟩ := List.forall_mem_cons.mp h
    rw [List.map_cons, familyRules, familyRules, Config.retention?_joined hf, ih hrest]

theorem requestFor_joined {t : TableSchema} (h : t.Transferable) :
    requestFor t.joined = requestFor t := by
  have hrules := familyRules_joined h.settings
  rw [requestFor, requestFor]
  show (familyRules (t.families.entries.map fun f => (f.1, Config.joined f.2)) >>= _) = _
  rw [hrules]
  rfl

end Bigtable

end SchemaTransfer
