import SchemaTransfer.Proofs.Json.Outcome
import SchemaTransfer.Proofs.Json.RoundTrip
import SchemaTransfer.Proofs.Schema.Acceptance

/-!
# Schemas are read as they were written

A schema whose configurations are JSON values can be written, and what is read of it differs at most
in its configurations, where surrogate pairs have been joined. A portable schema has no such pairs
and comes back as it was. All that is read from UTF-8 is portable.
-/
namespace SchemaTransfer

open Json (Everywhere DigitsFit)

/-! ## The written form -/

/-- A configured value in JSON, if it is a JSON value. -/
def ConfigValue.asJson : ConfigValue → Json
  | .json v => v
  | .bytes _ | .foreign _ _ _ => .null

def Config.asJson (c : Config) : Json := .object (c.entries.map fun e => (e.1, e.2.asJson))

def Families.asJson (f : Families) : Json :=
  .object (f.entries.map fun e => (e.1, Config.asJson e.2))

def TableSchema.asJson (t : TableSchema) : Json :=
  .object [(nameKey, .string t.name), (familiesKey, Families.asJson t.families),
    (splitsKey, .array (t.splits.map SplitKey.encode))]

def ClusterSchema.asJson (c : ClusterSchema) : Json :=
  .object [(tablesKey, .array (c.tables.map TableSchema.asJson))]

/-- A JSON value with numbers that can be read. -/
def ConfigValue.Writable (cv : ConfigValue) : Prop := ∃ v, cv = .json v ∧ v.Everywhere DigitsFit

def Config.Writable (c : Config) : Prop := ∀ e ∈ c.entries, e.2.Writable

def TableSchema.Writable (t : TableSchema) : Prop :=
  ∀ f ∈ t.families.entries, Config.Writable f.2

def ClusterSchema.Writable (c : ClusterSchema) : Prop := ∀ t ∈ c.tables, t.Writable

theorem ConfigValue.toJson_eq {cv : ConfigValue} (h : cv.Writable) : cv.toJson = .ok cv.asJson := by
  obtain ⟨v, rfl, hv⟩ := h
  exact if_pos hv

theorem entriesToJson_eq {α : Type} {toJson : α → Except Failure Json} {asJson : α → Json}
    {entries : List (Text × α)} (h : ∀ e ∈ entries, toJson e.2 = .ok (asJson e.2)) :
    entriesToJson toJson entries = .ok (entries.map fun e => (e.1, asJson e.2)) := by
  refine mapM_eq_ok_map fun e he => ?_
  rw [h e he]
  rfl

theorem Config.toJson_eq {c : Config} (h : Writable c) : toJson c = .ok (asJson c) := by
  rw [toJson, entriesToJson_eq fun e he => ConfigValue.toJson_eq (h e he)]
  rfl

theorem Families.toJson_eq {f : Families} (h : ∀ e ∈ f.entries, Config.Writable e.2) :
    toJson f = .ok (asJson f) := by
  rw [toJson, entriesToJson_eq fun e he => Config.toJson_eq (h e he)]
  rfl

theorem TableSchema.toJson_eq {t : TableSchema} (h : t.Writable) : t.toJson = .ok t.asJson := by
  rw [toJson, Families.toJson_eq h]
  rfl

theorem ClusterSchema.toJson_eq {c : ClusterSchema} (h : c.Writable) : c.toJson = .ok c.asJson := by
  rw [toJson, mapM_eq_ok_map fun t ht => TableSchema.toJson_eq (h t ht)]
  rfl

theorem ClusterSchema.toText_eq {c : ClusterSchema} (h : c.Writable) :
    c.toText = .ok (c.asJson.pretty ++ "\n") := by
  rw [toText, toJson_eq h]
  rfl

theorem Config.digitsFit_asJson {c : Config} (h : Writable c) : (asJson c).Everywhere DigitsFit := by
  refine ⟨trivial, Json.everyMember_iff.mpr (List.forall_mem_map.mpr fun e he => ?_)⟩
  obtain ⟨v, hv, hd⟩ := h e he
  rw [hv]
  exact hd

theorem TableSchema.digitsFit_asJson {t : TableSchema} (h : t.Writable) :
    t.asJson.Everywhere DigitsFit := by
  have hfamilies : (Families.asJson t.families).Everywhere DigitsFit :=
    ⟨trivial, Json.everyMember_iff.mpr
      (List.forall_mem_map.mpr fun e he => Config.digitsFit_asJson (h e he))⟩
  have hsplits : (Json.array (t.splits.map SplitKey.encode)).Everywhere DigitsFit :=
    ⟨trivial, Json.everyItem_iff.mpr
      (List.forall_mem_map.mpr fun key _ => (SplitKey.portable_encode key).digits)⟩
  exact ⟨trivial, trivial, hfamilies, hsplits, trivial⟩

theorem ClusterSchema.digitsFit_asJson {c : ClusterSchema} (h : c.Writable) :
    c.asJson.Everywhere DigitsFit :=
  ⟨trivial, ⟨trivial, Json.everyItem_iff.mpr
    (List.forall_mem_map.mpr fun t ht => TableSchema.digitsFit_asJson (h t ht))⟩, trivial⟩

/-! ## What comes back -/

def ConfigValue.joined : ConfigValue → ConfigValue
  | .json v => .json v.joined
  | cv => cv

/-- The configuration with the surrogate pairs in its settings joined. -/
def Config.joined (c : Config) : Config :=
  Dict.ofList (c.entries.map fun e => (e.1.joined, e.2.joined))

def TableSchema.joined (t : TableSchema) : TableSchema :=
  { t with families := t.families.mapValues Config.joined }

def ClusterSchema.joined (c : ClusterSchema) : ClusterSchema := ⟨c.tables.map TableSchema.joined⟩

/-- The names of the table and of its families have no surrogate pairs. -/
structure TableSchema.NamesUnpaired (t : TableSchema) : Prop where
  table : t.name.Unpaired
  families : ∀ family ∈ t.families.keys, family.Unpaired

def ClusterSchema.NamesUnpaired (c : ClusterSchema) : Prop := ∀ t ∈ c.tables, t.NamesUnpaired

theorem ClusterSchema.names_joined (c : ClusterSchema) : c.joined.names = c.names := by
  rw [names, joined, List.map_map]
  rfl

theorem Config.ofMembers_joined {c : Config} (h : Writable c) :
    ∃ settings, (asJson c).joined = .object settings ∧ joined c = ofMembers settings := by
  refine ⟨_, rfl, ?_⟩
  have hvalues : (c.entries.map fun e => (e.1.joined, e.2.joined)) =
      ((c.entries.map fun e => (e.1, e.2.asJson)).map fun m => (m.1.joined, m.2.joined)).map
        fun m => (m.1, ConfigValue.json m.2) := by
    rw [List.map_map, List.map_map]
    refine List.map_congr_left fun e he => ?_
    obtain ⟨v, hv, -⟩ := h e he
    simp only [Function.comp_apply, hv]
    rfl
  have hentries : ∀ d : Dict Text Json, (d.entries.map fun m => (m.1, ConfigValue.json m.2)) =
      (d.mapValues ConfigValue.json).entries := fun _ => rfl
  rw [joined, hvalues, Dict.ofList_map, Json.joinedMembers_eq_ofList, ofMembers, hentries,
    Dict.ofList_entries]

theorem Families.read_joined {f : Families} (hw : ∀ e ∈ f.entries, Config.Writable e.2)
    (hu : ∀ family ∈ f.keys, family.Unpaired) :
    FamiliesRead (asJson f).joined (f.mapValues Config.joined) := by
  have hkeys : Entries.keys (f.entries.map fun e => (e.1, Config.asJson e.2)) = f.keys := by
    rw [Entries.keys, List.map_map]
    rfl
  have hread : List.Forall₂ FamilyRead
      ((f.entries.map fun e => (e.1, Config.asJson e.2)).map fun m => (m.1, m.2.joined))
      (f.mapValues Config.joined).entries := by
    rw [List.map_map]
    refine List.forall₂_map_left_iff.mpr (List.forall₂_map_right_iff.mpr
      (List.forall₂_same.mpr fun e he => ?_))
    obtain ⟨settings, hs, hc⟩ := Config.ofMembers_joined (hw e he)
    exact ⟨rfl, settings, hs, hc⟩
  have hobject := FamiliesRead.object hread
  rw [Dict.ofList_entries] at hobject
  rw [asJson, Json.joined_object (hkeys ▸ hu) (hkeys ▸ f.nodup)]
  exact hobject

theorem splitsRead_joined (splits : List Bytes) :
    SplitsRead (Json.array (splits.map SplitKey.encode)).joined splits := by
  have hportable : (Json.array (splits.map SplitKey.encode)).Portable :=
    Json.portable_array.mpr (List.forall_mem_map.mpr fun key _ => SplitKey.portable_encode key)
  rw [hportable.joined_eq_self]
  exact .array (List.forall₂_map_left_iff.mpr
    (List.forall₂_same.mpr fun key _ => SplitKey.denotes_encode key))

theorem TableSchema.read_joined {t : TableSchema} (hv : t.Valid) (hw : t.Writable)
    (hu : t.NamesUnpaired) : TableRead t.asJson.joined t.joined := by
  have hmembers : t.asJson.joined = .object [(nameKey, .string t.name),
      (familiesKey, (Families.asJson t.families).joined),
      (splitsKey, (Json.array (t.splits.map SplitKey.encode)).joined)] := by
    have hunpaired : ∀ key ∈ [nameKey, familiesKey, splitsKey], key.Unpaired := by decide
    have hnodup : [nameKey, familiesKey, splitsKey].Nodup := by decide
    have hname : (Json.string t.name).joined = .string t.name := by
      rw [Json.joined, Text.joined_eq_self hu.table]
    rw [asJson, Json.joined_object, List.map_cons, hname]
    · rfl
    · exact hunpaired
    · exact hnodup
  rw [hmembers]
  exact .intro rfl ⟨hv.name_ne, hv.split_ne⟩ (Families.read_joined hw hu.families)
    (splitsRead_joined t.splits)

theorem ClusterSchema.read_joined {c : ClusterSchema} (hs : c.Sound) (hw : c.Writable)
    (hu : c.NamesUnpaired) : ClusterRead c.asJson.joined c.joined := by
  have hmembers : c.asJson.joined =
      .object [(tablesKey, .array ((c.tables.map TableSchema.asJson).map Json.joined))] := by
    have hunpaired : ∀ key ∈ [tablesKey], key.Unpaired := by decide
    rw [asJson, Json.joined_object, List.map_cons, Json.joined_array]
    · rfl
    · exact hunpaired
    · exact List.nodup_singleton _
  have hread : List.Forall₂ TableRead ((c.tables.map TableSchema.asJson).map Json.joined)
      c.joined.tables := by
    rw [List.map_map]
    exact List.forall₂_map_left_iff.mpr (List.forall₂_map_right_iff.mpr
      (List.forall₂_same.mpr fun t ht =>
        TableSchema.read_joined (hs.tables_valid t ht) (hw t ht) (hu t ht)))
  have hvalid : c.joined.Valid := by
    rw [Valid, names_joined]
    exact hs.names_nodup
  rw [hmembers]
  exact .list rfl hread hvalid

/-- What is read of a written schema is the schema with the pairs in its configurations joined. -/
theorem ClusterSchema.ofText_written {c : ClusterSchema} (hs : c.Sound) (hw : c.Writable)
    (hu : c.NamesUnpaired) : ofText (c.asJson.pretty ++ "\n") = .ok c.joined := by
  have hread : Json.read (c.asJson.pretty ++ "\n") = .ok c.asJson.joined :=
    Json.read_pretty (digitsFit_asJson hw) (by decide)
  rw [ofText, hread]
  exact ofJson_eq_ok.mpr (read_joined hs hw hu)

/-! ## Portable schemas -/

/-- Settings that JSON holds as they are. -/
def Config.Portable (c : Config) : Prop :=
  ∀ e ∈ c.entries, e.1.Unpaired ∧ ∃ v, e.2 = .json v ∧ v.Portable

structure TableSchema.Portable (t : TableSchema) : Prop where
  name : t.name.Unpaired
  families : ∀ f ∈ t.families.entries, f.1.Unpaired ∧ Config.Portable f.2

def ClusterSchema.Portable (c : ClusterSchema) : Prop := ∀ t ∈ c.tables, t.Portable

theorem Config.Portable.writable {c : Config} (h : Portable c) : Writable c := by
  intro e he
  obtain ⟨-, v, hv, hp⟩ := h e he
  exact ⟨v, hv, hp.digits⟩

theorem ClusterSchema.Portable.writable {c : ClusterSchema} (h : c.Portable) : c.Writable :=
  fun t ht f hf => ((h t ht).families f hf).2.writable

theorem ClusterSchema.Portable.namesUnpaired {c : ClusterSchema} (h : c.Portable) :
    c.NamesUnpaired := by
  intro t ht
  refine ⟨(h t ht).name, fun family hfamily => ?_⟩
  obtain ⟨config, hf⟩ := Entries.mem_keys.mp hfamily
  exact ((h t ht).families _ hf).1

theorem Config.Portable.joined_eq_self {c : Config} (h : Portable c) : Config.joined c = c := by
  have hentries : (c.entries.map fun e => (e.1.joined, e.2.joined)) = c.entries := by
    conv_rhs => rw [← List.map_id c.entries]
    refine List.map_congr_left fun e he => ?_
    obtain ⟨hu, v, hv, hp⟩ := h e he
    rw [Text.joined_eq_self hu, hv, ConfigValue.joined, hp.joined_eq_self, ← hv]
    rfl
  rw [Config.joined, hentries, Dict.ofList_entries]

theorem TableSchema.Portable.joined_eq_self {t : TableSchema} (h : t.Portable) : t.joined = t := by
  have hfamilies : t.families.mapValues Config.joined = t.families := by
    apply Dict.ext
    show (t.families.entries.map fun e => (e.1, Config.joined e.2)) = t.families.entries
    conv_rhs => rw [← List.map_id t.families.entries]
    refine List.map_congr_left fun f hf => ?_
    rw [((h.families f hf).2).joined_eq_self]
    rfl
  rw [TableSchema.joined, hfamilies]

theorem ClusterSchema.Portable.joined_eq_self {c : ClusterSchema} (h : c.Portable) :
    c.joined = c := by
  have htables : c.tables.map TableSchema.joined = c.tables := by
    conv_rhs => rw [← List.map_id c.tables]
    exact List.map_congr_left fun t ht => (h t ht).joined_eq_self
  rw [ClusterSchema.joined, htables]

/-! ## Schemas from portable values -/

theorem Config.TakenFrom.portable {c : Config} {v : Json} (hv : v.Portable) (h : c.TakenFrom v) :
    Config.Portable c := by
  obtain ⟨settings, rfl, hc⟩ := h
  obtain ⟨-, hkeys, hvalues⟩ := Json.portable_object.mp hv
  rw [Config.Portable, hc]
  exact List.forall_mem_map.mpr fun m hm =>
    ⟨hkeys m.1 (Entries.mem_keys.mpr ⟨m.2, hm⟩), m.2, rfl, hvalues m hm⟩

theorem TableSchema.TakenFrom.portable {t : TableSchema} {v : Json} (hv : v.Portable)
    (h : t.TakenFrom v) : t.Portable := by
  obtain ⟨members, rfl, hname, hfamilies, -⟩ := h
  have hn : Json.Portable (.string t.name) := hname ▸ Json.portable_member nameKey hv
  refine ⟨hn.unpaired.self, ?_⟩
  rcases hfamilies with ⟨-, hempty⟩ | ⟨families, hf, hall⟩
  · rw [hempty]
    exact fun _ hf => (nomatch hf)
  · have hobject : Json.Portable (.object families) := hf ▸ Json.portable_member familiesKey hv
    obtain ⟨-, hkeys, hvalues⟩ := Json.portable_object.mp hobject
    refine forall_of_forall₂ hall fun m hm f hmf => ?_
    rw [hmf.1]
    exact ⟨hkeys m.1 (Entries.mem_keys.mpr ⟨m.2, hm⟩), hmf.2.portable (hvalues m hm)⟩

theorem ClusterSchema.TakenFrom.portable {c : ClusterSchema} {v : Json} (hv : v.Portable)
    (h : c.TakenFrom v) : c.Portable := by
  obtain ⟨members, rfl, ⟨-, hempty⟩ | ⟨items, hi, hall⟩⟩ := h
  · rw [Portable, hempty]
    exact fun _ ht => (nomatch ht)
  · have hitems : Json.Portable (.array items) := hi ▸ Json.portable_member tablesKey hv
    exact forall_of_forall₂ hall fun w hw t ht => ht.portable (Json.portable_array.mp hitems w hw)

theorem surrogateFree_unifyFrom {t : Text} (h : t.SurrogateFree) (afterReturn : Bool) :
    (Text.unifyFrom afterReturn t).SurrogateFree := by
  induction t generalizing afterReturn with
  | nil => exact h
  | cons c t ih =>
    have hrest : ∀ b, (Text.unifyFrom b t).SurrogateFree :=
      ih fun d hd => h d (List.mem_cons_of_mem _ hd)
    rw [Text.unifyFrom]
    split
    · exact List.forall_mem_cons.mpr ⟨by decide, hrest true⟩
    split
    · exact hrest false
    · exact List.forall_mem_cons.mpr ⟨h c List.mem_cons_self, hrest false⟩

namespace ClusterSchema

/-- Whatever is read from text without surrogates is portable. -/
theorem portable_of_ofText {t : Text} {c : ClusterSchema} (ht : t.SurrogateFree)
    (h : ofText t = .ok c) : c.Sound ∧ c.Portable := by
  obtain ⟨v, hread, hc⟩ := ofText_eq_ok.mp h
  have hv := Json.portable_of_read ht hread
  exact ⟨hc.sound, (hc.takenFrom hv.distinct).portable hv⟩

/-- A portable schema is written, and what is written is read back as that schema, with every
table, family and setting in its place; written again it is the same text. What is read from a file
in UTF-8 is such a schema. -/
theorem ofText_toText :
    (∀ c : ClusterSchema, c.Sound → c.Portable →
      ∃ t, c.toText = .ok t ∧ ofText t = .ok c ∧ ∀ d, ofText t = .ok d → d.toText = .ok t) ∧
    ∀ (content : Bytes) (t : Text) (c : ClusterSchema), Utf8.decode content = .ok t →
      ofText t.unifyNewlines = .ok c → c.Sound ∧ c.Portable := by
  constructor
  · intro c hs hp
    have hread := ofText_written hs hp.writable hp.namesUnpaired
    rw [hp.joined_eq_self] at hread
    refine ⟨_, toText_eq hp.writable, hread, fun d hd => ?_⟩
    rw [hread] at hd
    cases hd
    exact toText_eq hp.writable
  · intro content t c hdecode hread
    exact portable_of_ofText
      (surrogateFree_unifyFrom (Utf8.surrogateFree_of_decode hdecode) false) hread

/-- A schema with a lone surrogate, a control character and a quote in a name, nested settings and
a key that is not UTF-8. -/
def awkward : ClusterSchema :=
  ⟨[⟨[⟨0xD800, by decide⟩, 'a', ⟨7, by decide⟩, '"'],
      ⟨[("cf", ⟨[("max_versions", .json (.double .nan)),
        ("", .json (.array [.object [("x", .int (-3))], .bool true, .int 1, .null, .array []]))],
        by decide⟩), ("", ⟨[], by decide⟩)], by decide⟩,
      [[0xFF, 0], [0x6D]]⟩,
    ⟨"b", ⟨[], by decide⟩, []⟩]⟩

theorem ofText_toText_awkward :
    (∃ t, awkward.toText = .ok t ∧ ofText t = .ok awkward) ∧ empty.Sound ∧ empty.Portable := by
  have hs : awkward.Sound := by
    refine ⟨(by decide : awkward.names.Nodup),
      List.forall_mem_cons.mpr ⟨⟨by decide, by decide⟩, ?_⟩⟩
    exact List.forall_mem_cons.mpr ⟨⟨by decide, by decide⟩, fun _ ht => (nomatch ht)⟩
  have hp : awkward.Portable := by
    simp only [awkward, Portable, List.forall_mem_cons, List.not_mem_nil, false_implies,
      implies_true, and_true]
    refine ⟨⟨by decide, ?_⟩, ⟨by decide, by simp⟩⟩
    simp only [List.forall_mem_cons, List.not_mem_nil, false_implies, implies_true, and_true,
      Config.Portable]
    exact ⟨⟨by decide, ⟨by decide, _, rfl, by decide +kernel⟩, by decide, _, rfl,
      by decide +kernel⟩, by decide⟩
  obtain ⟨t, ht, hread, -⟩ := ofText_toText.1 awkward hs hp
  have hbraces : Utf8.decode [0x7B, 0x7D] = .ok "\x7b\x7d" := Utf8.decode_of_encode? (by decide)
  exact ⟨⟨t, ht, hread⟩, ofText_toText.2 _ _ empty hbraces rfl⟩

end ClusterSchema

end SchemaTransfer
