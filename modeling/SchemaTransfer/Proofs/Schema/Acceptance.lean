import SchemaTransfer.Proofs.Schema.Decoding

/-!
# The values that describe a cluster

A value is accepted if it has the right shape at every level, if no name is missing or repeated
and no split key is empty. What is made of it is then exactly what it says, in its order, and
members with other keys make no difference. Any other value is refused as one that cannot be
decoded, unless its first fault is a split that the complaint would have to show and that holds a
whole number of too many digits.
-/
namespace SchemaTransfer

open Json (Falsy IsObject KeysDistinct)

/-! ## The shape of what is accepted -/

/-- A string without surrogates or a list of bytes, and not an empty one. -/
def SplitKey.Accepted (v : Json) : Prop :=
  (∃ t, v = .string t ∧ t ≠ [] ∧ t.SurrogateFree) ∨
    ∃ ints : List Int, v = .array (ints.map .int) ∧ ints ≠ [] ∧ ∀ i ∈ ints, IsByte i

def Families.Accepted (v : Json) : Prop :=
  Falsy v ∨ ∃ members, v = .object members ∧ ∀ m ∈ members, IsObject m.2

def SplitsAccepted (v : Json) : Prop :=
  Falsy v ∨ ∃ items, v = .array items ∧ ∀ w ∈ items, SplitKey.Accepted w

def TableSchema.Accepted (v : Json) : Prop :=
  ∃ members name, v = .object members ∧ Named members name ∧
    Families.Accepted (Json.member familiesKey members) ∧
    SplitsAccepted (Json.member splitsKey members)

/-- What stands as the name of an entry. -/
def Json.entryName : Json → Json
  | .object members => member nameKey members
  | _ => .null

def ClusterSchema.Accepted (v : Json) : Prop :=
  ∃ members, v = .object members ∧ (Falsy (Json.member tablesKey members) ∨
    ∃ items, Json.member tablesKey members = .array items ∧
      (∀ w ∈ items, TableSchema.Accepted w) ∧ (items.map Json.entryName).Nodup)

theorem SplitKey.accepted_iff {v : Json} :
    SplitKey.Accepted v ↔ ∃ key, key ≠ [] ∧ SplitKey.Denotes v key := by
  constructor
  · rintro (⟨t, rfl, hne, ht⟩ | ⟨ints, rfl, hne, hints⟩)
    · obtain ⟨key, hkey⟩ := Utf8.encode?_isSome.mpr ht
      refine ⟨key, ?_, .text hkey⟩
      rintro rfl
      have hdecode := Utf8.decode_of_encode? hkey
      rw [Utf8.decode, Utf8.decodeWithin] at hdecode
      exact hne (Except.ok.inj hdecode).symm
    · exact ⟨ints.map byteOf, by simpa using hne, .bytes ints hints⟩
  · rintro ⟨key, hne, hkey | ⟨ints, hints⟩⟩
    · refine Or.inl ⟨_, rfl, ?_, Utf8.encode?_isSome.mp ⟨key, hkey⟩⟩
      rintro rfl
      cases hkey
      exact hne rfl
    · exact Or.inr ⟨ints, rfl, by simpa using hne, hints⟩

theorem Families.accepted_iff {v : Json} : Families.Accepted v ↔ ∃ f, FamiliesRead v f := by
  constructor
  · rintro (hm | ⟨members, rfl, h⟩)
    · exact ⟨∅, .missing hm⟩
    · obtain ⟨entries, he⟩ := exists_forall₂.mpr fun m hm => isObject_iff.mp (h m hm)
      exact ⟨Dict.ofList entries, .object he⟩
  · rintro ⟨f, hm | h⟩
    · exact Or.inl hm
    · exact Or.inr ⟨_, rfl, fun m hm => isObject_iff.mpr (exists_forall₂.mp ⟨_, h⟩ m hm)⟩

theorem splitsAccepted_iff {v : Json} :
    SplitsAccepted v ↔ ∃ splits, [] ∉ splits ∧ SplitsRead v splits := by
  have hmem : ∀ splits : List Bytes, [] ∉ splits ↔ ∀ key ∈ splits, key ≠ [] :=
    fun splits => ⟨fun h key hk he => h (he ▸ hk), fun h hk => h [] hk rfl⟩
  constructor
  · rintro (hm | ⟨items, rfl, h⟩)
    · exact ⟨[], by simp, .missing hm⟩
    · obtain ⟨splits, hne, hs⟩ :=
        exists_forall₂_and.mpr fun w hw => SplitKey.accepted_iff.mp (h w hw)
      exact ⟨splits, (hmem splits).mpr hne, .array hs⟩
  · rintro ⟨splits, hne, hm | h⟩
    · exact Or.inl hm
    · exact Or.inr ⟨_, rfl, fun w hw => SplitKey.accepted_iff.mpr
        (exists_forall₂_and.mp ⟨splits, (hmem splits).mp hne, h⟩ w hw)⟩

theorem TableSchema.accepted_iff {v : Json} : TableSchema.Accepted v ↔ ∃ t, TableRead v t := by
  constructor
  · rintro ⟨members, name, rfl, hn, hf, hs⟩
    obtain ⟨f, hf⟩ := Families.accepted_iff.mp hf
    obtain ⟨splits, hne, hs⟩ := splitsAccepted_iff.mp hs
    exact ⟨⟨name, f, splits⟩, .intro hn.member_eq ⟨hn.ne_nil, hne⟩ hf hs⟩
  · rintro ⟨t, hname, hvalid, hf, hs⟩
    exact ⟨_, t.name, rfl, ⟨hname, hvalid.name_ne⟩, Families.accepted_iff.mpr ⟨t.families, hf⟩,
      splitsAccepted_iff.mpr ⟨t.splits, hvalid.split_ne, hs⟩⟩

theorem entryName_of_read {v : Json} {t : TableSchema} (h : TableRead v t) :
    v.entryName = .string t.name := by
  cases h with
  | intro hname => exact hname

/-- The names as they are written are distinct if and only if the names read are. -/
theorem nodup_entryNames {items : List Json} {c : ClusterSchema}
    (h : List.Forall₂ TableRead items c.tables) :
    (items.map Json.entryName).Nodup ↔ c.Valid := by
  have hnames : items.map Json.entryName = c.names.map .string := by
    rw [ClusterSchema.names, List.map_map]
    exact map_eq_map_of_forall₂ (h.imp fun _ _ => entryName_of_read)
  rw [hnames, ClusterSchema.Valid]
  exact List.nodup_map_iff fun s t hst => Json.string.inj hst

theorem ClusterSchema.accepted_iff {v : Json} :
    ClusterSchema.Accepted v ↔ ∃ c, ClusterRead v c := by
  constructor
  · rintro ⟨members, rfl, hm | ⟨items, hi, h, hnodup⟩⟩
    · exact ⟨.empty, .missing hm⟩
    · obtain ⟨tables, ht⟩ := exists_forall₂.mpr fun w hw => TableSchema.accepted_iff.mp (h w hw)
      exact ⟨⟨tables⟩, .list hi ht ((nodup_entryNames ht).mp hnodup)⟩
  · rintro ⟨c, hm | @⟨members, items, c, hi, h, hvalid⟩⟩
    · exact ⟨_, rfl, Or.inl hm⟩
    · exact ⟨members, rfl, Or.inr ⟨items, hi, fun w hw => TableSchema.accepted_iff.mpr
        (exists_forall₂.mp ⟨_, h⟩ w hw), (nodup_entryNames h).mpr hvalid⟩⟩

/-! ## What is made of it -/

/-- The settings are the members, unchanged and in their order. -/
def Config.TakenFrom (c : Config) (v : Json) : Prop :=
  ∃ settings, v = .object settings ∧ c.entries = settings.map fun m => (m.1, .json m.2)

def Families.TakenFrom (f : Families) (v : Json) : Prop :=
  (Falsy v ∧ f.entries = []) ∨ ∃ members, v = .object members ∧
    List.Forall₂ (fun m e => e.1 = m.1 ∧ Config.TakenFrom e.2 m.2) members f.entries

def SplitsTakenFrom (splits : List Bytes) (v : Json) : Prop :=
  (Falsy v ∧ splits = []) ∨
    ∃ items, v = .array items ∧ List.Forall₂ SplitKey.Denotes items splits

def TableSchema.TakenFrom (t : TableSchema) (v : Json) : Prop :=
  ∃ members, v = .object members ∧ Json.member nameKey members = .string t.name ∧
    Families.TakenFrom t.families (Json.member familiesKey members) ∧
    SplitsTakenFrom t.splits (Json.member splitsKey members)

/-- One table for each entry of the list, in its order. -/
def ClusterSchema.TakenFrom (c : ClusterSchema) (v : Json) : Prop :=
  ∃ members, v = .object members ∧ ((Falsy (Json.member tablesKey members) ∧ c.tables = []) ∨
    ∃ items, Json.member tablesKey members = .array items ∧
      List.Forall₂ (fun w t => TableSchema.TakenFrom t w) items c.tables)

theorem keys_map_json (members : List (Text × Json)) :
    Entries.keys (members.map fun m => (m.1, ConfigValue.json m.2)) = Entries.keys members := by
  rw [Entries.keys, List.map_map]
  rfl

theorem FamilyRead.takenFrom {m : Text × Json} {e : Text × Config}
    (hd : m.2.Everywhere KeysDistinct) (h : FamilyRead m e) :
    e.1 = m.1 ∧ Config.TakenFrom e.2 m.2 := by
  obtain ⟨hname, settings, hm, hc⟩ := h
  rw [hm] at hd
  refine ⟨hname, settings, hm, ?_⟩
  rw [hc, Config.ofMembers, Dict.entries_ofList_of_nodup]
  rw [keys_map_json]
  exact hd.self

theorem FamiliesRead.takenFrom {v : Json} {f : Families} (hd : v.Everywhere KeysDistinct)
    (h : FamiliesRead v f) : f.TakenFrom v := by
  cases h with
  | missing hm => exact Or.inl ⟨hm, rfl⟩
  | @object members entries h =>
    have hkeys : Entries.keys members = Entries.keys entries :=
      map_eq_map_of_forall₂ (h.imp fun _ _ hm => hm.1.symm)
    have hnodup : (Entries.keys entries).Nodup := hkeys ▸ hd.self
    refine Or.inr ⟨members, rfl, ?_⟩
    rw [Dict.entries_ofList_of_nodup hnodup]
    have hmem := Json.everyMember_iff.mp hd.2
    exact ((List.forall₂_and_left members entries).mpr ⟨hmem, h⟩).imp
      fun _ _ hm => hm.2.takenFrom hm.1

theorem SplitsRead.takenFrom {v : Json} {splits : List Bytes} (h : SplitsRead v splits) :
    SplitsTakenFrom splits v := by
  cases h with
  | missing hm => exact Or.inl ⟨hm, rfl⟩
  | array h => exact Or.inr ⟨_, rfl, h⟩

theorem TableRead.takenFrom {v : Json} {t : TableSchema} (hd : v.Everywhere KeysDistinct)
    (h : TableRead v t) : t.TakenFrom v := by
  cases h with
  | intro hname _ hf hs =>
    exact ⟨_, rfl, hname, hf.takenFrom (Json.everywhere_member familiesKey trivial hd),
      hs.takenFrom⟩

theorem ClusterRead.takenFrom {v : Json} {c : ClusterSchema} (hd : v.Everywhere KeysDistinct)
    (h : ClusterRead v c) : c.TakenFrom v := by
  cases h with
  | missing hm => exact ⟨_, rfl, Or.inl ⟨hm, rfl⟩⟩
  | @list members items _ hi h _ =>
    have hitems := Json.everywhere_member tablesKey trivial hd
    rw [hi] at hitems
    refine ⟨members, rfl, Or.inr ⟨items, hi, ?_⟩⟩
    exact ((List.forall₂_and_left items c.tables).mpr ⟨Json.everyItem_iff.mp hitems.2, h⟩).imp
      fun _ _ hw => hw.2.takenFrom hw.1

/-! ## What makes no difference -/

/-- Two entries that differ at most in members with unknown keys. -/
inductive TableSchema.SameKnown : Json → Json → Prop
  | refl (v : Json) : SameKnown v v
  | object {members others : List (Text × Json)}
    (h : ∀ key ∈ [nameKey, familiesKey, splitsKey],
      Json.member key members = Json.member key others) :
    SameKnown (.object members) (.object others)

inductive ClusterSchema.SameKnown : Json → Json → Prop
  | member {members others : List (Text × Json)}
    (h : Json.member tablesKey members = Json.member tablesKey others) :
    SameKnown (.object members) (.object others)
  | list {members others : List (Text × Json)} {items items' : List Json}
    (hi : Json.member tablesKey members = .array items)
    (hi' : Json.member tablesKey others = .array items')
    (h : List.Forall₂ TableSchema.SameKnown items items') :
    SameKnown (.object members) (.object others)

theorem TableSchema.ofJson_congr {v w : Json} (h : SameKnown v w) : ofJson v = ofJson w := by
  cases h with
  | refl => rfl
  | object h =>
    have hname := h nameKey (by simp)
    have hfamilies := h familiesKey (by simp)
    have hsplits := h splitsKey (by simp)
    unfold ofJson
    dsimp only
    rw [hname, hfamilies, hsplits]

theorem ClusterSchema.addJson_congr {items items' : List Json}
    (h : List.Forall₂ TableSchema.SameKnown items items') (c : ClusterSchema) :
    c.addJson items = c.addJson items' := by
  induction h generalizing c with
  | nil => rfl
  | @cons v w rest rest' hv _ ih =>
    rw [addJson, addJson, TableSchema.ofJson_congr hv]
    refine bind_congr fun t => bind_congr fun d => ih d

theorem ClusterSchema.ofJson_congr {v w : Json} (h : SameKnown v w) : ofJson v = ofJson w := by
  cases h with
  | member h =>
    unfold ofJson
    dsimp only
    rw [h]
  | list hi hi' h =>
    have hadd := addJson_congr h empty
    unfold ofJson
    dsimp only
    rw [hi, hi']
    cases h with
    | nil => rfl
    | cons => exact hadd

/-! ## Splits that cannot be shown -/

open Json (DigitsFit)

/-- The first fault of a table is a split that is neither a string nor a list and holds a whole
number of too many digits. -/
inductive TableSchema.LongSplit : Json → Prop
  | intro {members : List (Text × Json)} {name : Text} {f : Families} {before after : List Json}
    {w : Json} (hn : Named members name) (hf : FamiliesRead (Json.member familiesKey members) f)
    (hs : Json.member splitsKey members = .array (before ++ w :: after))
    (hb : ∀ u ∈ before, ∃ key, SplitKey.Denotes u key) (hw : SplitKey.Unsupported w)
    (hlong : ¬ w.Everywhere DigitsFit) : LongSplit (.object members)

/-- The first entry with a fault is a table of that kind. -/
inductive ClusterSchema.LongSplit : Json → Prop
  | intro {members : List (Text × Json)} {before after : List Json} {v : Json}
    {earlier : List TableSchema}
    (hi : Json.member tablesKey members = .array (before ++ v :: after))
    (hb : List.Forall₂ TableRead before earlier) (hn : (earlier.map TableSchema.name).Nodup)
    (hv : TableSchema.LongSplit v) : LongSplit (.object members)

theorem TableSchema.LongSplit.fault {v : Json} (h : LongSplit v) : TableFault v .longInteger := by
  cases h with
  | intro hn hf hs hb hw hlong =>
    refine .splits hn hf ?_
    rw [hs]
    exact .split hb (.long hw hlong)

theorem ClusterSchema.LongSplit.fault {v : Json} (h : LongSplit v) :
    ClusterFault v .longInteger := by
  cases h with
  | intro hi hb hn hv =>
    refine .entry hi (.intro hb ?_ (.malformed hv.fault))
    rwa [List.nil_append]

theorem FamiliesFault.isDecode {table : Text} {v : Json} {e : Failure}
    (h : FamiliesFault table v e) : ∃ d, e = .decode d := by
  cases h with
  | notObject | config => exact ⟨_, rfl⟩

theorem TableFault.isDecode_or_long {v : Json} {e : Failure} (h : TableFault v e) :
    (∃ d, e = .decode d) ∨ e = .longInteger ∧ TableSchema.LongSplit v := by
  cases h with
  | notObject | unnamed | emptySplit => exact Or.inl ⟨_, rfl⟩
  | families hn hf => exact Or.inl hf.isDecode
  | splits hn hf hs =>
    generalize hv : Json.member splitsKey _ = v at hs
    cases hs with
    | notList => exact Or.inl ⟨_, rfl⟩
    | split hb hw =>
      cases hw with
      | text | bytes | other => exact Or.inl ⟨_, rfl⟩
      | long hw hlong => exact Or.inr ⟨rfl, .intro hn hf hv hb hw hlong⟩

/-- The only failure that is no decode error is that of such a split. -/
theorem ClusterFault.isDecode_or_long {v : Json} {e : Failure} (h : ClusterFault v e) :
    (∃ d, e = .decode d) ∨ e = .longInteger ∧ ClusterSchema.LongSplit v := by
  cases h with
  | notObject | notList => exact Or.inl ⟨_, rfl⟩
  | entry hi hfirst =>
    cases hfirst with
    | intro hb hn hentry =>
      rw [List.nil_append] at hn hentry
      cases hentry with
      | repeated => exact Or.inl ⟨_, rfl⟩
      | malformed hv =>
        exact hv.isDecode_or_long.imp_right fun ⟨he, hlong⟩ => ⟨he, .intro hi hb hn hlong⟩

theorem TableSchema.LongSplit.not_digitsFit {v : Json} (h : LongSplit v) :
    ¬ v.Everywhere DigitsFit := by
  rintro hv
  cases h with
  | intro hn hf hs hb hw hlong =>
    have hsplits := Json.everywhere_member splitsKey trivial hv
    rw [hs] at hsplits
    exact hlong (Json.everyItem_iff.mp hsplits.2 _ (by simp))

theorem ClusterSchema.LongSplit.not_digitsFit {v : Json} (h : LongSplit v) :
    ¬ v.Everywhere DigitsFit := by
  rintro hv
  cases h with
  | intro hi hb hn htable =>
    have hitems := Json.everywhere_member tablesKey trivial hv
    rw [hi] at hitems
    exact htable.not_digitsFit (Json.everyItem_iff.mp hitems.2 _ (by simp))

/-- What was read from text has no number that is too long, so nothing but decode errors arises. -/
theorem ClusterSchema.isDecode_of_ofJson {v : Json} {e : Failure} (hd : v.Everywhere DigitsFit)
    (h : ofJson v = .error e) : ∃ d, e = .decode d :=
  (ofJson_eq_error.mp h).isDecode_or_long.resolve_right fun hlong => hlong.2.not_digitsFit hd

/-- A schema of two tables with a member of an unknown key. The first table has a split in each of
the two forms. -/
def twoTables (second : Text) : Json :=
  .object [("comment", .null), (tablesKey, .array [
    .object [(nameKey, .string "a"),
      (familiesKey, .object [("cf", .object [("max_versions", .int 3)])]),
      (splitsKey, .array [.string "m", .array [.int (-1), .int 255]])],
    .object [(nameKey, .string second), (splitsKey, .bool false)]])]

end SchemaTransfer
