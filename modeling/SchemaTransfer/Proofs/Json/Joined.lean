import SchemaTransfer.Proofs.Dict
import SchemaTransfer.Proofs.Json.Number
import SchemaTransfer.Proofs.Text.Surrogate

/-!
# What a written value comes back as

Writing and reading a value joins the surrogate pairs in its strings and in its keys; two keys of
an object that become one in this way leave one member. A portable value has no surrogate pairs,
no key twice and no number that is too long, so it comes back as it was.
-/
namespace SchemaTransfer.Json

/-! ## Properties of all values inside a value -/

theorem everyItem_iff {p : Json → Prop} {items : List Json} :
    EveryItem p items ↔ ∀ v ∈ items, Everywhere p v := by
  induction items with
  | nil => simp [EveryItem]
  | cons v rest ih => rw [EveryItem, ih, List.forall_mem_cons]

theorem everyMember_iff {p : Json → Prop} {members : List (Text × Json)} :
    EveryMember p members ↔ ∀ m ∈ members, Everywhere p m.2 := by
  induction members with
  | nil => simp [EveryMember]
  | cons m rest ih => rw [EveryMember, ih, List.forall_mem_cons]

theorem Everywhere.self {p : Json → Prop} {v : Json} (h : Everywhere p v) : p v := by
  cases v <;> simp_all [Everywhere]

/-- The value of a member is a value inside the object, or null. -/
theorem everywhere_member {p : Json → Prop} {members : List (Text × Json)} (key : Text)
    (hn : p .null) (h : Everywhere p (.object members)) : Everywhere p (member key members) := by
  rw [member]
  cases hg : Entries.get? key members with
  | none => exact hn
  | some v => exact everyMember_iff.mp h.2 _ (Entries.mem_of_get?_eq_some hg)

/-- No object has a key twice. -/
def KeysDistinct : Json → Prop
  | .object members => (Entries.keys members).Nodup
  | _ => True

/-- No string and no key has a high surrogate right before a low one. -/
def TextsUnpaired : Json → Prop
  | .string t => t.Unpaired
  | .object members => ∀ key ∈ Entries.keys members, key.Unpaired
  | _ => True

instance : DecidablePred KeysDistinct
  | .object members => inferInstanceAs (Decidable (Entries.keys members).Nodup)
  | .null | .bool _ | .int _ | .double _ | .string _ | .array _ => .isTrue trivial

instance : DecidablePred TextsUnpaired
  | .string t => inferInstanceAs (Decidable t.Unpaired)
  | .object members => inferInstanceAs (Decidable (∀ key ∈ Entries.keys members, key.Unpaired))
  | .null | .bool _ | .int _ | .double _ | .array _ => .isTrue trivial

/-- What is written and read again without a change. -/
structure Portable (v : Json) : Prop where
  distinct : Everywhere KeysDistinct v
  digits : Everywhere DigitsFit v
  unpaired : Everywhere TextsUnpaired v

theorem portable_iff {v : Json} : v.Portable ↔
    Everywhere KeysDistinct v ∧ Everywhere DigitsFit v ∧ Everywhere TextsUnpaired v :=
  ⟨fun h => ⟨h.distinct, h.digits, h.unpaired⟩, fun ⟨hd, hf, hu⟩ => ⟨hd, hf, hu⟩⟩

instance (v : Json) : Decidable v.Portable := decidable_of_iff' _ portable_iff

theorem portable_array {items : List Json} :
    Portable (.array items) ↔ ∀ v ∈ items, Portable v := by
  constructor
  · intro h v hv
    exact ⟨everyItem_iff.mp h.distinct.2 v hv, everyItem_iff.mp h.digits.2 v hv,
      everyItem_iff.mp h.unpaired.2 v hv⟩
  · intro h
    exact ⟨⟨trivial, everyItem_iff.mpr fun v hv => (h v hv).distinct⟩,
      ⟨trivial, everyItem_iff.mpr fun v hv => (h v hv).digits⟩,
      ⟨trivial, everyItem_iff.mpr fun v hv => (h v hv).unpaired⟩⟩

theorem portable_object {members : List (Text × Json)} :
    Portable (.object members) ↔ (Entries.keys members).Nodup ∧
      (∀ key ∈ Entries.keys members, key.Unpaired) ∧ ∀ m ∈ members, Portable m.2 := by
  constructor
  · intro h
    exact ⟨h.distinct.1, h.unpaired.1, fun m hm => ⟨everyMember_iff.mp h.distinct.2 m hm,
      everyMember_iff.mp h.digits.2 m hm, everyMember_iff.mp h.unpaired.2 m hm⟩⟩
  · rintro ⟨hd, hu, h⟩
    exact ⟨⟨hd, everyMember_iff.mpr fun m hm => (h m hm).distinct⟩,
      ⟨trivial, everyMember_iff.mpr fun m hm => (h m hm).digits⟩,
      ⟨hu, everyMember_iff.mpr fun m hm => (h m hm).unpaired⟩⟩

theorem portable_member {members : List (Text × Json)} (key : Text)
    (h : Portable (.object members)) : (member key members).Portable :=
  ⟨everywhere_member key trivial h.distinct, everywhere_member key trivial h.digits,
    everywhere_member key trivial h.unpaired⟩

/-! ## Joining the pairs -/

mutual

/-- The value with the surrogate pairs of its strings and keys joined. -/
def joined : Json → Json
  | .string t => .string t.joined
  | .array items => .array (joinedItems items)
  | .object members => .object (joinedMembers [] members)
  | v => v

def joinedItems : List Json → List Json
  | [] => []
  | v :: rest => joined v :: joinedItems rest

/-- The members added to those already there, one after another. -/
def joinedMembers (done : List (Text × Json)) : List (Text × Json) → List (Text × Json)
  | [] => done
  | (k, v) :: rest => joinedMembers (Entries.put k.joined (joined v) done) rest

end

theorem joinedItems_eq_map (items : List Json) : joinedItems items = items.map joined := by
  induction items with
  | nil => rfl
  | cons v rest ih => rw [joinedItems, ih, List.map_cons]

theorem joinedMembers_eq_foldl (done members : List (Text × Json)) :
    joinedMembers done members =
      (members.map fun m => (m.1.joined, m.2.joined)).foldl
        (fun entries m => Entries.put m.1 m.2 entries) done := by
  induction members generalizing done with
  | nil => rfl
  | cons m rest ih =>
    rw [joinedMembers, ih, List.map_cons, List.foldl_cons]

theorem joinedMembers_eq_ofList (members : List (Text × Json)) :
    joinedMembers [] members =
      (Dict.ofList (members.map fun m => (m.1.joined, m.2.joined))).entries := by
  rw [joinedMembers_eq_foldl, Dict.entries_ofList]

/-- Members with unpaired, distinct keys keep their keys and their places. -/
theorem joinedMembers_of_unpaired {members : List (Text × Json)}
    (hu : ∀ key ∈ Entries.keys members, key.Unpaired) (hd : (Entries.keys members).Nodup) :
    joinedMembers [] members = members.map fun m => (m.1, m.2.joined) := by
  have hkeys : (members.map fun m => (m.1.joined, m.2.joined)) =
      members.map fun m => (m.1, m.2.joined) := by
    refine List.map_congr_left fun m hm => ?_
    rw [Text.joined_eq_self (hu m.1 (Entries.mem_keys.mpr ⟨m.2, hm⟩))]
  rw [joinedMembers_eq_ofList, hkeys, Dict.entries_ofList_of_nodup]
  rw [Entries.keys, List.map_map]
  exact hd

theorem joined_object {members : List (Text × Json)}
    (hu : ∀ key ∈ Entries.keys members, key.Unpaired) (hd : (Entries.keys members).Nodup) :
    (Json.object members).joined = .object (members.map fun m => (m.1, m.2.joined)) := by
  rw [joined, joinedMembers_of_unpaired hu hd]

theorem joined_array (items : List Json) : (Json.array items).joined = .array (items.map joined) := by
  rw [joined, joinedItems_eq_map]

mutual

theorem joined_eq_self : ∀ {v : Json}, Everywhere KeysDistinct v → Everywhere TextsUnpaired v →
    v.joined = v
  | .null, _, _ => rfl
  | .bool _, _, _ => rfl
  | .int _, _, _ => rfl
  | .double _, _, _ => rfl
  | .string t, _, hu => by rw [joined, Text.joined_eq_self hu.self]
  | .array items, hd, hu => by rw [joined, joinedItems_eq_self hd.2 hu.2]
  | .object members, hd, hu => by
    rw [joined, joinedMembers_of_unpaired hu.1 hd.1, map_joined_eq_self hd.2 hu.2]

theorem joinedItems_eq_self : ∀ {items : List Json}, EveryItem KeysDistinct items →
    EveryItem TextsUnpaired items → joinedItems items = items
  | [], _, _ => rfl
  | v :: rest, hd, hu => by
    rw [joinedItems, joined_eq_self hd.1 hu.1, joinedItems_eq_self hd.2 hu.2]

theorem map_joined_eq_self : ∀ {members : List (Text × Json)}, EveryMember KeysDistinct members →
    EveryMember TextsUnpaired members → (members.map fun m => (m.1, m.2.joined)) = members
  | [], _, _ => rfl
  | (k, v) :: rest, hd, hu => by
    rw [List.map_cons, joined_eq_self hd.1 hu.1, map_joined_eq_self hd.2 hu.2]

end

theorem Portable.joined_eq_self {v : Json} (h : v.Portable) : v.joined = v :=
  Json.joined_eq_self h.distinct h.unpaired

end SchemaTransfer.Json
