import SchemaTransfer.Proofs.Except
import SchemaTransfer.Schema.Interchange

/-!
# What keeps a schema from being put into text

JSON has no place for some configured values, and whole numbers may be too long for it. A schema has
no text exactly if one of its settings holds such a flaw, at any depth, and the failure is that of a
flaw which it holds.
-/
namespace SchemaTransfer

/-! ## Values -/

theorem Json.checked_eq_error {v : Json} {e : Failure} :
    v.checked = .error e ↔ ¬ v.Everywhere DigitsFit ∧ e = .longInteger := by
  rw [checked]
  split
  · next h => simp [h]
  · next h => simp [h, eq_comm]

theorem Json.everywhere_digitsFit_int {i : Int} :
    (Json.int i).Everywhere DigitsFit ↔ FewDigits i := Iff.rfl

/-- Why a key can not be the name of a member. -/
inductive Foreign.Key.Flaw : Foreign.Key → Failure → Prop
  | long {i : Int} (h : ¬ Json.FewDigits i) : Flaw (.int i) .longInteger
  | other (type : Text) : Flaw (.other type) (.badKey type)

theorem Foreign.Key.toText_eq_error {key : Foreign.Key} {e : Failure} :
    key.toText = .error e ↔ key.Flaw e := by
  constructor
  · intro h
    cases key with
    | text | null | bool | double => cases h
    | int i =>
      rw [toText, map_eq_error, Json.checked_eq_error, Json.everywhere_digitsFit_int] at h
      obtain ⟨hlong, rfl⟩ := h
      exact .long hlong
    | other type =>
      cases h
      exact .other type
  · rintro (hlong | type)
    · rw [toText, map_eq_error, Json.checked_eq_error, Json.everywhere_digitsFit_int]
      exact ⟨hlong, rfl⟩
    · rfl

/-- What there is in a value, at any depth, that can not be put into JSON. -/
inductive Foreign.Flaw : Foreign → Failure → Prop
  | long {v : Json} (h : ¬ v.Everywhere Json.DigitsFit) : Flaw (.json v) .longInteger
  | other (type : Text) : Flaw (.other type) (.noJson type)
  | item {items : List Foreign} {v : Foreign} {e : Failure} (hv : v ∈ items) (h : Flaw v e) :
    Flaw (.list items) e
  | key {members : List (Foreign.Key × Foreign)} {m : Foreign.Key × Foreign} {e : Failure}
    (hm : m ∈ members) (h : m.1.Flaw e) : Flaw (.mapping members) e
  | member {members : List (Foreign.Key × Foreign)} {m : Foreign.Key × Foreign} {e : Failure}
    (hm : m ∈ members) (h : Flaw m.2 e) : Flaw (.mapping members) e

namespace Foreign

mutual

theorem flaw_of_toJson : ∀ {v : Foreign} {e : Failure}, v.toJson = .error e → v.Flaw e
  | .json v, e, h => by
    obtain ⟨hlong, rfl⟩ := Json.checked_eq_error.mp h
    exact .long hlong
  | .other type, e, h => by
    cases h
    exact .other type
  | .list items, e, h => by
    obtain ⟨v, hv, hflaw⟩ := flaw_of_itemsToJson (map_eq_error.mp h)
    exact .item hv hflaw
  | .mapping members, e, h => by
    obtain ⟨m, hm, hkey | hflaw⟩ := flaw_of_membersToJson (map_eq_error.mp h)
    · exact .key hm hkey
    · exact .member hm hflaw

theorem flaw_of_itemsToJson : ∀ {items : List Foreign} {e : Failure},
    itemsToJson items = .error e → ∃ v ∈ items, v.Flaw e
  | [], e, h => by cases h
  | v :: rest, e, h => by
    rw [itemsToJson] at h
    rcases bind_eq_error.mp h with hv | ⟨_, -, h⟩
    · exact ⟨v, .head _, flaw_of_toJson hv⟩
    rcases bind_eq_error.mp h with hrest | ⟨_, -, h⟩
    · obtain ⟨u, hu, hflaw⟩ := flaw_of_itemsToJson hrest
      exact ⟨u, .tail _ hu, hflaw⟩
    · cases h

theorem flaw_of_membersToJson : ∀ {members : List (Foreign.Key × Foreign)} {e : Failure},
    membersToJson members = .error e → ∃ m ∈ members, m.1.Flaw e ∨ m.2.Flaw e
  | [], e, h => by cases h
  | (key, v) :: rest, e, h => by
    rw [membersToJson] at h
    rcases bind_eq_error.mp h with hkey | ⟨_, -, h⟩
    · exact ⟨(key, v), .head _, Or.inl (Key.toText_eq_error.mp hkey)⟩
    rcases bind_eq_error.mp h with hv | ⟨_, -, h⟩
    · exact ⟨(key, v), .head _, Or.inr (flaw_of_toJson hv)⟩
    rcases bind_eq_error.mp h with hrest | ⟨_, -, h⟩
    · obtain ⟨m, hm, hflaw⟩ := flaw_of_membersToJson hrest
      exact ⟨m, .tail _ hm, hflaw⟩
    · cases h

end

/-- Where the value of one item is missing, so is that of the list. -/
theorem itemsToJson_of_mem {items : List Foreign} {v : Foreign} (hv : v ∈ items)
    (h : ∃ e, v.toJson = .error e) : ∃ e, itemsToJson items = .error e := by
  obtain ⟨e, h⟩ := h
  induction hv with
  | head => exact ⟨e, by rw [itemsToJson, h]; rfl⟩
  | @tail u rest _ ih =>
    obtain ⟨d, hrest⟩ := ih
    rw [itemsToJson, hrest]
    cases u.toJson with
    | error e => exact ⟨e, rfl⟩
    | ok v => exact ⟨d, rfl⟩

/-- Where the name or the value of one member is missing, so is that of the mapping. -/
theorem membersToJson_of_mem {members : List (Foreign.Key × Foreign)} {m : Foreign.Key × Foreign}
    (hm : m ∈ members) (h : (∃ e, m.1.toText = .error e) ∨ ∃ e, m.2.toJson = .error e) :
    ∃ e, membersToJson members = .error e := by
  induction hm with
  | head =>
    rw [membersToJson]
    cases hkey : m.1.toText with
    | error e => exact ⟨e, rfl⟩
    | ok t =>
      rcases h with ⟨e, hmissing⟩ | ⟨e, hmissing⟩
      · cases hkey.symm.trans hmissing
      · exact ⟨e, by rw [hmissing]; rfl⟩
  | @tail u rest _ ih =>
    obtain ⟨d, hrest⟩ := ih
    rw [membersToJson, hrest]
    cases u.1.toText with
    | error e => exact ⟨e, rfl⟩
    | ok t =>
      cases u.2.toJson with
      | error e => exact ⟨e, rfl⟩
      | ok v => exact ⟨d, rfl⟩

theorem Flaw.toJson_fails {v : Foreign} {e : Failure} (h : v.Flaw e) : ∃ e, v.toJson = .error e := by
  induction h with
  | long h => exact ⟨_, Json.checked_eq_error.mpr ⟨h, rfl⟩⟩
  | other type => exact ⟨_, rfl⟩
  | item hv _ ih => exact (itemsToJson_of_mem hv ih).imp fun _ => map_eq_error.mpr
  | key hm h =>
    have hkey := membersToJson_of_mem hm (Or.inl ⟨_, Key.toText_eq_error.mpr h⟩)
    exact hkey.imp fun _ => map_eq_error.mpr
  | member hm _ ih => exact (membersToJson_of_mem hm (Or.inr ih)).imp fun _ => map_eq_error.mpr

end Foreign

/-! ## Settings and schemas -/

inductive ConfigValue.Flaw : ConfigValue → Failure → Prop
  | long {v : Json} (h : ¬ v.Everywhere Json.DigitsFit) : Flaw (.json v) .longInteger
  | bytes (b : Bytes) : Flaw (.bytes b) (.noJson "bytes")
  | foreign {kin : Nat} {whole : Option Int} {form : Foreign} {e : Failure} (h : form.Flaw e) :
    Flaw (.foreign kin whole form) e

/-- A setting of the schema has the flaw. -/
def ClusterSchema.Flaw (c : ClusterSchema) (e : Failure) : Prop :=
  ∃ t ∈ c.tables, ∃ f ∈ t.families.entries, ∃ s ∈ f.2.entries, s.2.Flaw e

theorem ConfigValue.flaw_of_toJson {cv : ConfigValue} {e : Failure} (h : cv.toJson = .error e) :
    cv.Flaw e := by
  cases cv with
  | json v =>
    obtain ⟨hlong, rfl⟩ := Json.checked_eq_error.mp h
    exact .long hlong
  | bytes b =>
    cases h
    exact .bytes b
  | foreign kin whole form => exact .foreign (Foreign.flaw_of_toJson h)

theorem ConfigValue.Flaw.toJson_fails {cv : ConfigValue} {e : Failure} (h : cv.Flaw e) :
    ∃ e, cv.toJson = .error e := by
  cases h with
  | long h => exact ⟨_, Json.checked_eq_error.mpr ⟨h, rfl⟩⟩
  | bytes b => exact ⟨_, rfl⟩
  | foreign h => exact h.toJson_fails

theorem exists_of_entriesToJson {α : Type} {toJson : α → Except Failure Json}
    {entries : List (Text × α)} {e : Failure} (h : entriesToJson toJson entries = .error e) :
    ∃ entry ∈ entries, toJson entry.2 = .error e := by
  obtain ⟨entry, hentry, herror⟩ := exists_of_mapM_eq_error h
  exact ⟨entry, hentry, map_eq_error.mp herror⟩

theorem entriesToJson_fails {α : Type} {toJson : α → Except Failure Json}
    {entries : List (Text × α)} {entry : Text × α} (hentry : entry ∈ entries)
    (h : ∃ e, toJson entry.2 = .error e) : ∃ e, entriesToJson toJson entries = .error e :=
  mapM_fails hentry (h.imp fun _ => map_eq_error.mpr)

namespace ClusterSchema

variable {c : ClusterSchema} {e : Failure}

theorem toText_eq_error : c.toText = .error e ↔ c.toJson = .error e := map_eq_error

theorem flaw_of_toText (h : c.toText = .error e) : c.Flaw e := by
  obtain ⟨t, ht, h⟩ := exists_of_mapM_eq_error (map_eq_error.mp (toText_eq_error.mp h))
  obtain ⟨f, hf, h⟩ := exists_of_entriesToJson (map_eq_error.mp (map_eq_error.mp h))
  obtain ⟨s, hs, h⟩ := exists_of_entriesToJson (map_eq_error.mp h)
  exact ⟨t, ht, f, hf, s, hs, ConfigValue.flaw_of_toJson h⟩

theorem Flaw.toText_fails (h : c.Flaw e) : ∃ e, c.toText = .error e := by
  obtain ⟨t, ht, f, hf, s, hs, h⟩ := h
  have hconfig : ∃ e, Config.toJson f.2 = .error e :=
    (entriesToJson_fails hs h.toJson_fails).imp fun _ => map_eq_error.mpr
  have hfamilies : ∃ e, Families.toJson t.families = .error e :=
    (entriesToJson_fails hf hconfig).imp fun _ => map_eq_error.mpr
  have htable : ∃ e, t.toJson = .error e := hfamilies.imp fun _ => map_eq_error.mpr
  have hcluster : ∃ e, c.toJson = .error e :=
    (mapM_fails ht htable).imp fun _ => map_eq_error.mpr
  exact hcluster.imp fun _ => toText_eq_error.mpr

end ClusterSchema

end SchemaTransfer
