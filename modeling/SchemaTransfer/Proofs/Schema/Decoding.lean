import SchemaTransfer.Proofs.Schema.SplitKey
import SchemaTransfer.Schema.Interchange

/-!
# Decoding the interchange format

Which JSON values describe a cluster, what is decoded from them, and with what fault any other value
is refused. Faults are found in the order in which a table is checked, and the tables are checked
in the order of the list.
-/
namespace SchemaTransfer

namespace Json

/-- The values that count as missing where there is a default. -/
inductive Falsy : Json → Prop
  | null : Falsy .null
  | bool : Falsy (.bool false)
  | int : Falsy (.int 0)
  | double {negative : Bool} {rank : Fin Double.finiteRanks} (h : rank.val = 0) :
    Falsy (.double (.finite negative rank))
  | string : Falsy (.string [])
  | array : Falsy (.array [])
  | object : Falsy (.object [])

theorem isMissing_iff {v : Json} : v.isMissing = true ↔ Falsy v := by
  constructor
  · intro h
    cases v with
    | null => exact .null
    | bool b => cases b with
      | false => exact .bool
      | true => cases h
    | int i =>
      rw [of_decide_eq_true h]
      exact .int
    | double d => cases d with
      | nan => cases h
      | inf negative => cases h
      | finite negative rank => exact .double (of_decide_eq_true h)
    | string t => rw [List.isEmpty_iff.mp h]; exact .string
    | array items => rw [List.isEmpty_iff.mp h]; exact .array
    | object members => rw [List.isEmpty_iff.mp h]; exact .object
  · intro h
    cases h with
    | double h => exact decide_eq_true h
    | _ => rfl

def IsObject (v : Json) : Prop := ∃ members, v = .object members

end Json

open Json (Falsy IsObject)

/-! ## Families -/

/-- A family read from a member: its settings are the members of the configuration. -/
def FamilyRead (m : Text × Json) (e : Text × Config) : Prop :=
  e.1 = m.1 ∧ ∃ settings, m.2 = .object settings ∧ e.2 = Config.ofMembers settings

inductive FamiliesRead : Json → Families → Prop
  | missing {v : Json} (h : Falsy v) : FamiliesRead v ∅
  | object {members : List (Text × Json)} {entries : List (Text × Config)}
    (h : List.Forall₂ FamilyRead members entries) :
    FamiliesRead (.object members) (Dict.ofList entries)

/-- The first family whose configuration is no object decides, if there are families at all. -/
inductive FamiliesFault (table : Text) : Json → Failure → Prop
  | notObject {v : Json} (hm : ¬ Falsy v) (h : ¬ IsObject v) :
    FamiliesFault table v (.decode (.familiesNotObject table))
  | config {before after : List (Text × Json)} {family : Text} {v : Json}
    (hb : ∀ m ∈ before, IsObject m.2) (h : ¬ IsObject v) :
    FamiliesFault table (.object (before ++ (family, v) :: after))
      (.decode (.configNotObject family table))

/-- One member of the families as an entry. -/
def familyEntry (table : Text) : Text × Json → Except Failure (Text × Config)
  | (family, .object settings) => .ok (family, Config.ofMembers settings)
  | (family, _) => .error (.decode (.configNotObject family table))

theorem familyEntries_eq_mapM (table : Text) (members : List (Text × Json)) :
    familyEntries table members = members.mapM (familyEntry table) := by
  induction members with
  | nil => rfl
  | cons m rest ih =>
    obtain ⟨family, v⟩ := m
    rw [List.mapM_cons]
    cases v with
    | object settings =>
      rw [familyEntries, ih]
      cases rest.mapM (familyEntry table) <;> rfl
    | _ => rfl

theorem familyEntry_eq_ok {table : Text} {m : Text × Json} {e : Text × Config} :
    familyEntry table m = .ok e ↔ FamilyRead m e := by
  obtain ⟨family, v⟩ := m
  obtain ⟨name, config⟩ := e
  cases v <;> simp [familyEntry, FamilyRead, eq_comm]

theorem familyEntry_eq_error {table : Text} {m : Text × Json} {e : Failure} :
    familyEntry table m = .error e ↔ ¬ IsObject m.2 ∧ e = .decode (.configNotObject m.1 table) := by
  obtain ⟨family, v⟩ := m
  cases v <;> simp [familyEntry, IsObject, eq_comm]

theorem isObject_iff {m : Text × Json} : IsObject m.2 ↔ ∃ e, FamilyRead m e := by
  constructor
  · rintro ⟨settings, h⟩
    exact ⟨(m.1, Config.ofMembers settings), rfl, settings, h, rfl⟩
  · rintro ⟨e, -, settings, h, -⟩
    exact ⟨settings, h⟩

theorem familiesOfJson_eq_ok {table : Text} {v : Json} {f : Families} :
    familiesOfJson table v = .ok f ↔ FamiliesRead v f := by
  constructor
  · intro h
    unfold familiesOfJson at h
    split at h
    · next hm =>
      cases h
      exact .missing (Json.isMissing_iff.mp hm)
    · split at h
      · obtain ⟨entries, he, rfl⟩ := map_eq_ok.mp h
        rw [familyEntries_eq_mapM, mapM_eq_ok] at he
        exact .object (he.imp fun _ _ => familyEntry_eq_ok.mp)
      · cases h
  · rintro (hm | @⟨members, entries, h⟩)
    · unfold familiesOfJson
      rw [if_pos (Json.isMissing_iff.mpr hm)]
    · cases h with
      | nil => rfl
      | cons hm hrest =>
        have hentry : ∀ m e, FamilyRead m e → familyEntry table m = .ok e :=
          fun _ _ => familyEntry_eq_ok.mpr
        have he := mapM_eq_ok.mpr ((List.Forall₂.cons hm hrest).imp hentry)
        unfold familiesOfJson
        rw [if_neg (by simp [Json.isMissing])]
        dsimp only
        rw [familyEntries_eq_mapM, he]
        rfl

theorem familiesOfJson_eq_error {table : Text} {v : Json} {e : Failure} :
    familiesOfJson table v = .error e ↔ FamiliesFault table v e := by
  constructor
  · intro h
    unfold familiesOfJson at h
    split at h
    · cases h
    next hm =>
    rw [Json.isMissing_iff] at hm
    split at h
    · rw [map_eq_error, familyEntries_eq_mapM, mapM_eq_error] at h
      obtain ⟨before, ⟨family, w⟩, after, rfl, hb, he⟩ := h
      obtain ⟨hw, rfl⟩ := familyEntry_eq_error.mp he
      refine .config (fun m hmem => isObject_iff.mpr ?_) hw
      obtain ⟨entry, hentry⟩ := hb m hmem
      exact ⟨entry, familyEntry_eq_ok.mp hentry⟩
    · next hobject =>
      cases h
      exact .notObject hm fun ⟨members, hv⟩ => hobject members hv
  · rintro (⟨hm, hv⟩ | ⟨hb, hw⟩)
    · unfold familiesOfJson
      rw [if_neg (fun h => hm (Json.isMissing_iff.mp h))]
      split
      · exact absurd ⟨_, rfl⟩ hv
      · rfl
    · unfold familiesOfJson
      rw [if_neg (by simp [Json.isMissing])]
      dsimp only
      rw [map_eq_error, familyEntries_eq_mapM, mapM_eq_error]
      refine ⟨_, _, _, rfl, fun m hmem => ?_, familyEntry_eq_error.mpr ⟨hw, rfl⟩⟩
      obtain ⟨entry, hentry⟩ := isObject_iff.mp (hb m hmem)
      exact ⟨entry, familyEntry_eq_ok.mpr hentry⟩

/-! ## Splits -/

inductive SplitsRead : Json → List Bytes → Prop
  | missing {v : Json} (h : Falsy v) : SplitsRead v []
  | array {items : List Json} {splits : List Bytes}
    (h : List.Forall₂ SplitKey.Denotes items splits) : SplitsRead (.array items) splits

inductive SplitsFault (table : Text) : Json → Failure → Prop
  | notList {v : Json} (hm : ¬ Falsy v) (h : ∀ items, v ≠ .array items) :
    SplitsFault table v (.decode (.splitsNotList table))
  | split {before after : List Json} {v : Json} {e : Failure}
    (hb : ∀ w ∈ before, ∃ key, SplitKey.Denotes w key) (h : SplitKey.Refused v e) :
    SplitsFault table (.array (before ++ v :: after)) e

theorem splitsOfJson_eq_ok {table : Text} {v : Json} {splits : List Bytes} :
    splitsOfJson table v = .ok splits ↔ SplitsRead v splits := by
  constructor
  · intro h
    unfold splitsOfJson at h
    split at h
    · next hm =>
      cases h
      exact .missing (Json.isMissing_iff.mp hm)
    · split at h
      · rw [SplitKey.decodeAll_eq_mapM, mapM_eq_ok] at h
        exact .array (h.imp fun _ _ => SplitKey.decode_eq_ok.mp)
      · cases h
  · rintro (hm | @⟨items, splits, h⟩)
    · unfold splitsOfJson
      rw [if_pos (Json.isMissing_iff.mpr hm)]
    · cases h with
      | nil => rfl
      | cons hv hrest =>
        have he := mapM_eq_ok.mpr ((List.Forall₂.cons hv hrest).imp
          fun _ _ => SplitKey.decode_eq_ok.mpr)
        unfold splitsOfJson
        rw [if_neg (by simp [Json.isMissing])]
        dsimp only
        rw [SplitKey.decodeAll_eq_mapM, he]

theorem splitsOfJson_eq_error {table : Text} {v : Json} {e : Failure} :
    splitsOfJson table v = .error e ↔ SplitsFault table v e := by
  constructor
  · intro h
    unfold splitsOfJson at h
    split at h
    · cases h
    next hm =>
    rw [Json.isMissing_iff] at hm
    split at h
    · rw [SplitKey.decodeAll_eq_mapM, mapM_eq_error] at h
      obtain ⟨before, w, after, rfl, hb, he⟩ := h
      refine .split (fun u hu => ?_) (SplitKey.decode_eq_error.mp he)
      obtain ⟨key, hkey⟩ := hb u hu
      exact ⟨key, SplitKey.decode_eq_ok.mp hkey⟩
    · next harray =>
      cases h
      exact .notList hm harray
  · rintro (⟨hm, hv⟩ | ⟨hb, hw⟩)
    · unfold splitsOfJson
      rw [if_neg (fun h => hm (Json.isMissing_iff.mp h))]
      split
      · exact absurd rfl (hv _)
      · rfl
    · unfold splitsOfJson
      rw [if_neg (by simp [Json.isMissing])]
      dsimp only
      rw [SplitKey.decodeAll_eq_mapM, mapM_eq_error]
      refine ⟨_, _, _, rfl, fun u hu => ?_, SplitKey.decode_eq_error.mpr hw⟩
      obtain ⟨key, hkey⟩ := hb u hu
      exact ⟨key, SplitKey.decode_eq_ok.mpr hkey⟩

/-! ## Tables -/

inductive TableRead : Json → TableSchema → Prop
  | intro {members : List (Text × Json)} {t : TableSchema}
    (hname : Json.member nameKey members = .string t.name) (hvalid : t.Valid)
    (hf : FamiliesRead (Json.member familiesKey members) t.families)
    (hs : SplitsRead (Json.member splitsKey members) t.splits) : TableRead (.object members) t

/-- The members of a table that has a name. -/
structure Named (members : List (Text × Json)) (name : Text) : Prop where
  member_eq : Json.member nameKey members = .string name
  ne_nil : name ≠ []

/-- A table is checked member by member; that none of its splits is empty is checked at last. -/
inductive TableFault : Json → Failure → Prop
  | notObject {v : Json} (h : ¬ IsObject v) : TableFault v (.decode .tableNotObject)
  | unnamed {members : List (Text × Json)} (h : ∀ name, ¬ Named members name) :
    TableFault (.object members) (.decode .missingName)
  | families {members : List (Text × Json)} {name : Text} {e : Failure}
    (hn : Named members name) (h : FamiliesFault name (Json.member familiesKey members) e) :
    TableFault (.object members) e
  | splits {members : List (Text × Json)} {name : Text} {f : Families} {e : Failure}
    (hn : Named members name) (hf : FamiliesRead (Json.member familiesKey members) f)
    (h : SplitsFault name (Json.member splitsKey members) e) : TableFault (.object members) e
  | emptySplit {members : List (Text × Json)} {name : Text} {f : Families} {splits : List Bytes}
    (hn : Named members name) (hf : FamiliesRead (Json.member familiesKey members) f)
    (hs : SplitsRead (Json.member splitsKey members) splits) (h : [] ∈ splits) :
    TableFault (.object members) (.decode (.definition (.emptySplit name)))

namespace TableSchema

theorem create_named {name : Text} (hne : name ≠ []) (families : Families) (splits : List Bytes) :
    create (some name) families splits =
      if [] ∈ splits then .error (.emptySplit name) else .ok ⟨name, families, splits⟩ := by
  cases name with
  | nil => exact absurd rfl hne
  | cons c rest => rfl

/-- What is left to do for a table once its name is known. -/
theorem ofJson_named {members : List (Text × Json)} {name : Text} (hn : Named members name) :
    ofJson (.object members) =
      (do
        let families ← familiesOfJson name (Json.member familiesKey members)
        let splits ← splitsOfJson name (Json.member splitsKey members)
        (create (some name) families splits).mapError fun e => .decode (.definition e)) := by
  obtain ⟨hm, hne⟩ := hn
  cases name with
  | nil => exact absurd rfl hne
  | cons c rest =>
    unfold ofJson
    dsimp only
    rw [hm]

theorem ofJson_unnamed {members : List (Text × Json)} (h : ∀ name, ¬ Named members name) :
    ofJson (.object members) = .error (.decode .missingName) := by
  unfold ofJson
  dsimp only
  split
  · next c rest hm => exact absurd ⟨hm, List.cons_ne_nil c rest⟩ (h (c :: rest))
  · rfl

theorem ofJson_eq_ok {v : Json} {t : TableSchema} : ofJson v = .ok t ↔ TableRead v t := by
  constructor
  · intro h
    by_cases hv : IsObject v
    · obtain ⟨members, rfl⟩ := hv
      by_cases hn : ∃ name, Named members name
      · obtain ⟨name, hn⟩ := hn
        rw [ofJson_named hn] at h
        obtain ⟨families, hf, h⟩ := bind_eq_ok.mp h
        obtain ⟨splits, hs, h⟩ := bind_eq_ok.mp h
        obtain ⟨hname, rfl, rfl, hvalid⟩ := create_eq_ok (mapError_eq_ok.mp h)
        cases hname
        exact .intro hn.member_eq hvalid (familiesOfJson_eq_ok.mp hf) (splitsOfJson_eq_ok.mp hs)
      · rw [ofJson_unnamed (not_exists.mp hn)] at h
        cases h
    · cases v with
      | object members => exact absurd ⟨members, rfl⟩ hv
      | _ => cases h
  · rintro ⟨hname, hvalid, hf, hs⟩
    rw [ofJson_named ⟨hname, hvalid.name_ne⟩, familiesOfJson_eq_ok.mpr hf, splitsOfJson_eq_ok.mpr hs]
    show (create _ _ _).mapError _ = _
    rw [create_named hvalid.name_ne, if_neg hvalid.split_ne]
    rfl

theorem ofJson_eq_error {v : Json} {e : Failure} : ofJson v = .error e ↔ TableFault v e := by
  constructor
  · intro h
    by_cases hv : IsObject v
    · obtain ⟨members, rfl⟩ := hv
      by_cases hn : ∃ name, Named members name
      · obtain ⟨name, hn⟩ := hn
        rw [ofJson_named hn] at h
        rcases bind_eq_error.mp h with hf | ⟨families, hf, h⟩
        · exact .families hn (familiesOfJson_eq_error.mp hf)
        rw [familiesOfJson_eq_ok] at hf
        rcases bind_eq_error.mp h with hs | ⟨splits, hs, h⟩
        · exact .splits hn hf (splitsOfJson_eq_error.mp hs)
        rw [splitsOfJson_eq_ok] at hs
        rw [create_named hn.ne_nil] at h
        split at h
        · next hempty =>
          cases h
          exact .emptySplit hn hf hs hempty
        · cases h
      · rw [ofJson_unnamed (not_exists.mp hn)] at h
        cases h
        exact .unnamed (not_exists.mp hn)
    · cases v with
      | object members => exact absurd ⟨members, rfl⟩ hv
      | _ =>
        cases h
        exact .notObject hv
  · rintro (hv | hn | ⟨hn, hf⟩ | ⟨hn, hf, hs⟩ | ⟨hn, hf, hs, hempty⟩)
    · cases v with
      | object members => exact absurd ⟨members, rfl⟩ hv
      | _ => rfl
    · exact ofJson_unnamed hn
    · rw [ofJson_named hn, familiesOfJson_eq_error.mpr hf]
      rfl
    · rw [ofJson_named hn, familiesOfJson_eq_ok.mpr hf, splitsOfJson_eq_error.mpr hs]
      rfl
    · rw [ofJson_named hn, familiesOfJson_eq_ok.mpr hf, splitsOfJson_eq_ok.mpr hs]
      show (create _ _ _).mapError _ = _
      rw [create_named hn.ne_nil, if_pos hempty]
      rfl

end TableSchema

theorem TableRead.unique {v : Json} {t u : TableSchema} (ht : TableRead v t) (hu : TableRead v u) :
    t = u := by
  rw [← TableSchema.ofJson_eq_ok] at ht hu
  rw [ht] at hu
  exact Except.ok.inj hu

theorem TableRead.not_fault {v : Json} {t : TableSchema} {e : Failure} (ht : TableRead v t) :
    ¬ TableFault v e := by
  intro he
  rw [← TableSchema.ofJson_eq_error, TableSchema.ofJson_eq_ok.mpr ht] at he
  cases he

theorem TableFault.unique {v : Json} {e e' : Failure} (he : TableFault v e)
    (he' : TableFault v e') : e = e' := by
  rw [← TableSchema.ofJson_eq_error] at he he'
  rw [he] at he'
  exact Except.error.inj he'

/-! ## Clusters -/

inductive ClusterRead : Json → ClusterSchema → Prop
  | missing {members : List (Text × Json)} (h : Falsy (Json.member tablesKey members)) :
    ClusterRead (.object members) .empty
  | list {members : List (Text × Json)} {items : List Json} {c : ClusterSchema}
    (hi : Json.member tablesKey members = .array items)
    (h : List.Forall₂ TableRead items c.tables) (hvalid : c.Valid) :
    ClusterRead (.object members) c

/-- What keeps an entry from becoming a table behind tables with the given names. -/
inductive EntryFault (names : List Text) (v : Json) : Failure → Prop
  | malformed {e : Failure} (h : TableFault v e) : EntryFault names v e
  | repeated {t : TableSchema} (h : TableRead v t) (hn : t.name ∈ names) :
    EntryFault names v (.decode (.definition (.duplicateTable t.name)))

theorem EntryFault.not_of_read {names : List Text} {v : Json} {t : TableSchema} {e : Failure}
    (ht : TableRead v t) (hn : t.name ∉ names) : ¬ EntryFault names v e := by
  rintro (h | ⟨hu, hmem⟩)
  · exact ht.not_fault h
  · rw [hu.unique ht] at hmem
    exact hn hmem

theorem EntryFault.unique {names : List Text} {v : Json} {e e' : Failure}
    (h : EntryFault names v e) (h' : EntryFault names v e') : e = e' := by
  rcases h with h | ⟨ht, hn⟩ <;> rcases h' with h' | ⟨ht', hn'⟩
  · exact h.unique h'
  · exact absurd h ht'.not_fault
  · exact absurd h' ht.not_fault
  · rw [ht.unique ht']

/-- The first entry of a list that is malformed or repeats an earlier name. -/
inductive FirstFault (names : List Text) : List Json → Failure → Prop
  | intro {before after : List Json} {v : Json} {earlier : List TableSchema} {e : Failure}
    (hb : List.Forall₂ TableRead before earlier)
    (hn : (names ++ earlier.map TableSchema.name).Nodup)
    (h : EntryFault (names ++ earlier.map TableSchema.name) v e) :
    FirstFault names (before ++ v :: after) e

/-- An entry that becomes a table leaves the fault to the entries behind it. -/
theorem firstFault_cons_read {names : List Text} {v : Json} {rest : List Json} {t : TableSchema}
    {e : Failure} (ht : TableRead v t) (hn : t.name ∉ names) :
    FirstFault names (v :: rest) e ↔ FirstFault (names ++ [t.name]) rest e := by
  constructor
  · intro h
    generalize hitems : v :: rest = items at h
    cases h with
    | intro hb hnames he =>
      cases hb with
      | nil =>
        cases hitems
        rw [List.map_nil, List.append_nil] at he
        exact absurd he (EntryFault.not_of_read ht hn)
      | cons hu hb =>
        cases hitems
        rw [hu.unique ht, List.map_cons, List.append_cons] at hnames he
        exact .intro hb hnames he
  · rintro ⟨hb, hnames, he⟩
    rw [← List.append_cons, ← List.map_cons] at hnames he
    exact .intro (.cons ht hb) hnames he

/-- An entry with a fault is the first one. -/
theorem firstFault_cons_fault {names : List Text} {v : Json} {rest : List Json}
    {e e' : Failure} (hnames : names.Nodup) (h : EntryFault names v e) :
    FirstFault names (v :: rest) e' ↔ e' = e := by
  constructor
  · intro hf
    generalize hitems : v :: rest = items at hf
    cases hf with
    | intro hb hn he =>
      cases hb with
      | nil =>
        cases hitems
        rw [List.map_nil, List.append_nil] at he
        exact he.unique h
      | cons hu hb =>
        cases hitems
        exact absurd h (EntryFault.not_of_read hu fun hmem =>
          List.disjoint_of_nodup_append hn hmem (by simp))
  · rintro rfl
    have hf : FirstFault names ([] ++ v :: rest) e' :=
      .intro .nil (by rwa [List.map_nil, List.append_nil])
        (by rwa [List.map_nil, List.append_nil])
    exact hf

inductive ClusterFault : Json → Failure → Prop
  | notObject {v : Json} (h : ¬ IsObject v) : ClusterFault v (.decode .schemaNotObject)
  | notList {members : List (Text × Json)} (hm : ¬ Falsy (Json.member tablesKey members))
    (h : ∀ items, Json.member tablesKey members ≠ .array items) :
    ClusterFault (.object members) (.decode .tablesNotList)
  | entry {members : List (Text × Json)} {items : List Json} {e : Failure}
    (hi : Json.member tablesKey members = .array items) (h : FirstFault [] items e) :
    ClusterFault (.object members) e

namespace ClusterSchema

theorem names_append (c : ClusterSchema) (tables : List TableSchema) :
    names ⟨c.tables ++ tables⟩ = c.names ++ tables.map TableSchema.name :=
  List.map_append

theorem add_of_mem {c : ClusterSchema} {t : TableSchema} (h : t.name ∈ c.names) :
    c.add t = .error (.duplicateTable t.name) := by
  rw [add, if_pos (any_name_iff.mpr h)]

theorem add_of_notMem {c : ClusterSchema} {t : TableSchema} (h : t.name ∉ c.names) :
    c.add t = .ok ⟨c.tables ++ [t]⟩ := by
  rw [add, if_neg fun ha => h (any_name_iff.mp ha)]

/-- One entry: it becomes the next table, or its fault is that of the list. -/
theorem addJson_cons (c : ClusterSchema) (v : Json) (rest : List Json) :
    (∃ t, TableRead v t ∧ t.name ∉ c.names ∧
      c.addJson (v :: rest) = addJson ⟨c.tables ++ [t]⟩ rest) ∨
    ∃ e, EntryFault c.names v e ∧ c.addJson (v :: rest) = .error e := by
  cases hv : TableSchema.ofJson v with
  | error e =>
    refine Or.inr ⟨e, .malformed (TableSchema.ofJson_eq_error.mp hv), ?_⟩
    rw [addJson, hv]
    rfl
  | ok t =>
    have ht := TableSchema.ofJson_eq_ok.mp hv
    by_cases hn : t.name ∈ c.names
    · refine Or.inr ⟨_, .repeated ht hn, ?_⟩
      rw [addJson, hv]
      show (c.add t).mapError _ >>= _ = _
      rw [add_of_mem hn]
      rfl
    · refine Or.inl ⟨t, ht, hn, ?_⟩
      rw [addJson, hv]
      show (c.add t).mapError _ >>= _ = _
      rw [add_of_notMem hn]
      rfl

theorem valid_append_cons {c : ClusterSchema} {t : TableSchema} (hc : c.Valid)
    (hn : t.name ∉ c.names) : Valid ⟨c.tables ++ [t]⟩ :=
  valid_add hc (add_of_notMem hn)

/-- From a list whose entries all become tables they are added in order. -/
theorem addJson_eq_ok {c d : ClusterSchema} {items : List Json} (hc : c.Valid) :
    c.addJson items = .ok d ↔
      ∃ tables, List.Forall₂ TableRead items tables ∧ d.tables = c.tables ++ tables ∧ d.Valid := by
  induction items generalizing c with
  | nil =>
    simp only [addJson, Except.ok.injEq, List.forall₂_nil_left_iff, exists_eq_left, List.append_nil]
    constructor
    · rintro rfl
      exact ⟨rfl, hc⟩
    · rintro ⟨h, -⟩
      cases c
      cases d
      cases h
      rfl
  | cons v rest ih =>
    rcases addJson_cons c v rest with ⟨t, ht, hn, hstep⟩ | ⟨e, he, hstep⟩
    · rw [hstep, ih (valid_append_cons hc hn)]
      simp only [List.forall₂_cons_left_iff]
      constructor
      · rintro ⟨tables, hrest, hd, hvalid⟩
        exact ⟨t :: tables, ⟨t, tables, ht, hrest, rfl⟩, by rw [hd, List.append_assoc]; rfl, hvalid⟩
      · rintro ⟨_, ⟨t', tables, ht', hrest, rfl⟩, hd, hvalid⟩
        rw [ht'.unique ht] at hd
        exact ⟨tables, hrest, by rw [hd, List.append_assoc]; rfl, hvalid⟩
    · rw [hstep]
      refine ⟨fun h => (nomatch h), fun ⟨tables, htables, hd, hvalid⟩ => ?_⟩
      obtain ⟨t, tables, ht, -, rfl⟩ := List.forall₂_cons_left_iff.mp htables
      rw [Valid, names, hd, List.map_append] at hvalid
      exact absurd he (EntryFault.not_of_read ht fun hmem =>
        List.disjoint_of_nodup_append hvalid hmem (by simp))

/-- The first fault along a list is the error. -/
theorem addJson_eq_error {c : ClusterSchema} {items : List Json} {e : Failure}
    (hc : c.Valid) : c.addJson items = .error e ↔ FirstFault c.names items e := by
  induction items generalizing c with
  | nil =>
    refine ⟨fun h => (nomatch h), fun h => ?_⟩
    generalize hitems : ([] : List Json) = items at h
    cases h with
    | intro hb hn h => exact absurd hitems (by simp)
  | cons v rest ih =>
    rcases addJson_cons c v rest with ⟨t, ht, hn, hstep⟩ | ⟨e', he', hstep⟩
    · rw [hstep, ih (valid_append_cons hc hn), firstFault_cons_read ht hn, names_append]
      rfl
    · rw [hstep, firstFault_cons_fault hc he', Except.error.injEq, eq_comm]

theorem valid_empty : empty.Valid := List.nodup_nil

theorem ofJson_eq_ok {v : Json} {c : ClusterSchema} : ofJson v = .ok c ↔ ClusterRead v c := by
  constructor
  · intro h
    unfold ofJson at h
    split at h
    · next members =>
      dsimp only at h
      split at h
      · next hm =>
        cases h
        exact .missing (Json.isMissing_iff.mp hm)
      · split at h
        · next hi =>
          obtain ⟨tables, htables, hc, hvalid⟩ := (addJson_eq_ok valid_empty).mp h
          rw [empty, List.nil_append] at hc
          exact .list hi (hc ▸ htables) hvalid
        · cases h
    · cases h
  · rintro (hm | @⟨members, items, c, hi, h, hvalid⟩)
    · unfold ofJson
      dsimp only
      rw [if_pos (Json.isMissing_iff.mpr hm)]
    · have hadd : empty.addJson items = .ok c :=
        (addJson_eq_ok valid_empty).mpr ⟨c.tables, h, rfl, hvalid⟩
      unfold ofJson
      dsimp only
      rw [hi]
      cases items with
      | nil => exact hadd
      | cons v rest =>
        rw [if_neg (by simp [Json.isMissing])]
        exact hadd

theorem ofJson_eq_error {v : Json} {e : Failure} : ofJson v = .error e ↔ ClusterFault v e := by
  constructor
  · intro h
    unfold ofJson at h
    split at h
    · dsimp only at h
      split at h
      · cases h
      next hm =>
      split at h
      · next hi => exact .entry hi ((addJson_eq_error valid_empty).mp h)
      · next hi =>
        cases h
        exact .notList (fun hf => hm (Json.isMissing_iff.mpr hf)) hi
    · next hv =>
      cases h
      exact .notObject fun ⟨members, h⟩ => hv members h
  · rintro (hv | ⟨hm, hi⟩ | ⟨hi, h⟩)
    · cases v with
      | object members => exact absurd ⟨members, rfl⟩ hv
      | _ => rfl
    · unfold ofJson
      dsimp only
      rw [if_neg fun h => hm (Json.isMissing_iff.mp h)]
      split
      · next items hi' => exact absurd hi' (hi items)
      · rfl
    · have hadd := (addJson_eq_error valid_empty).mpr h
      unfold ofJson
      dsimp only
      rw [hi]
      cases h with
      | intro hb hn he =>
        rw [if_neg (by simp [Json.isMissing])]
        exact hadd

theorem ofText_eq_ok {t : Text} {c : ClusterSchema} :
    ofText t = .ok c ↔ ∃ v, Json.read t = .ok v ∧ ClusterRead v c := by
  unfold ofText
  split
  · next h => simp [h]
  · next h => simp [h]
  · next v h => simp [h, ofJson_eq_ok]

end ClusterSchema

/-- What holds of every cluster and of the tables in it. -/
structure ClusterSchema.Sound (c : ClusterSchema) : Prop where
  names_nodup : c.Valid
  tables_valid : ∀ t ∈ c.tables, t.Valid

theorem ClusterSchema.sound_empty : empty.Sound := ⟨valid_empty, fun _ ht => (nomatch ht)⟩

theorem TableRead.valid {v : Json} {t : TableSchema} (h : TableRead v t) : t.Valid := by
  cases h with
  | intro _ hvalid => exact hvalid

theorem ClusterRead.sound {v : Json} {c : ClusterSchema} (h : ClusterRead v c) : c.Sound := by
  cases h with
  | missing => exact ClusterSchema.sound_empty
  | list _ h hvalid => exact ⟨hvalid, forall_of_forall₂ h fun _ _ _ ht => ht.valid⟩

end SchemaTransfer
