import Mathlib.Data.List.Nodup
import SchemaTransfer.HBase.Catalogue
import SchemaTransfer.Proofs.Dict
import SchemaTransfer.Proofs.Except
import SchemaTransfer.Proofs.Text.WellFormed

/-!
# Decoding what a server sends

No two families of a table come out under one name, because no two names in bytes spell the same
text. So every family comes out once and in its place, with all of its settings but the name.
-/
namespace SchemaTransfer.HBase

/-- The name is sent as bytes that spell the text. -/
def RawName.Spells (n : RawName) (t : Text) : Prop := ∃ b, n = .bytes b ∧ Utf8.Spells t b

/-- What a sent value says: bytes say the text that they spell. -/
inductive ValueSays : ConfigValue → ConfigValue → Prop
  | bytes {b : Bytes} {t : Text} (h : Utf8.Spells t b) : ValueSays (.bytes b) (.json (.string t))
  | json (v : Json) : ValueSays (.json v) (.json v)

structure SettingSays (sent decoded : Text × ConfigValue) : Prop where
  key_eq : decoded.1 = sent.1
  value : ValueSays sent.2 decoded.2

/-- A family comes out under the name that its bytes spell, with what its settings say, in their
order and without the setting that repeats the name. -/
structure FamilySays (sent : RawName × Descriptor) (decoded : Text × Config) : Prop where
  name : sent.1.Spells decoded.1
  settings : List.Forall₂ SettingSays (sent.2.entries.filter fun e => e.1 ≠ "name")
    decoded.2.entries

/-- A family whose name and whose values can be decoded; the value that repeats the name does not
count. -/
structure FamilyLegible (f : RawName × Descriptor) : Prop where
  name : ∃ t, f.1.Spells t
  settings : ∀ e ∈ f.2.entries, e.1 ≠ "name" → ∃ v, ValueSays e.2 v

variable {n : RawName} {t : Text}

/-! ## Names -/

theorem RawName.decode_of_spells (h : n.Spells t) : n.decode = .ok t := by
  obtain ⟨b, rfl, hb⟩ := h
  exact Utf8.decode_eq_ok_iff.mpr hb

/-- Different names say different things, and a name says one thing only. -/
theorem RawName.spells_biUnique : Relator.BiUnique RawName.Spells := by
  refine ⟨?_, ?_⟩
  · intro n t m hn hm
    obtain ⟨b, rfl, hb⟩ := hn
    obtain ⟨b', rfl, hb'⟩ := hm
    rw [← Utf8.encode?_eq_some_iff] at hb hb'
    rw [Option.some.inj (hb.symm.trans hb')]
  · intro n t u ht hu
    exact Except.ok.inj ((decode_of_spells ht).symm.trans (decode_of_spells hu))

/-! ## Settings -/

theorem decodeSetting_of_valueSays {cv v : ConfigValue} (h : ValueSays cv v) :
    decodeSetting cv = .ok v := by
  cases h with
  | bytes hb =>
    rw [decodeSetting, Utf8.decode_eq_ok_iff.mpr hb]
    rfl
  | json => rfl

theorem decodeSettings_of_legible {sent : List (Text × ConfigValue)}
    (h : ∀ e ∈ sent, e.1 ≠ "name" → ∃ v, ValueSays e.2 v) :
    ∃ settings, decodeSettings sent = .ok settings ∧
      List.Forall₂ SettingSays (sent.filter fun e => e.1 ≠ "name") settings := by
  induction sent with
  | nil => exact ⟨[], rfl, .nil⟩
  | cons e rest ih =>
    obtain ⟨he, hrest⟩ := List.forall_mem_cons.mp h
    obtain ⟨settings, hsettings, hsays⟩ := ih hrest
    obtain ⟨key, cv⟩ := e
    rw [decodeSettings]
    by_cases hkey : key = "name"
    · rw [if_pos hkey, List.filter_cons_of_neg (by simpa using hkey)]
      exact ⟨settings, hsettings, hsays⟩
    · obtain ⟨v, hv⟩ := he hkey
      rw [if_neg hkey, decodeSetting_of_valueSays hv, hsettings,
        List.filter_cons_of_pos (by simpa using hkey)]
      exact ⟨(key, v) :: settings, rfl, .cons ⟨rfl, hv⟩ hsays⟩

theorem keys_of_settingsSay {sent decoded : List (Text × ConfigValue)}
    (h : List.Forall₂ SettingSays sent decoded) : Entries.keys decoded = Entries.keys sent :=
  (map_eq_map_of_forall₂ (h.imp fun _ _ he => he.key_eq.symm)).symm

/-- The keys of a descriptor are distinct, so no setting takes the place of another. -/
theorem entries_ofList_of_settingsSay {descriptor : Descriptor}
    {settings : List (Text × ConfigValue)}
    (h : List.Forall₂ SettingSays (descriptor.entries.filter fun e => e.1 ≠ "name") settings) :
    (Dict.ofList settings).entries = settings := by
  apply Dict.entries_ofList_of_nodup
  rw [keys_of_settingsSay h]
  exact descriptor.nodup.sublist (List.filter_sublist.map Prod.fst)

/-! ## Families -/

theorem decodeFamilies_of_legible {sent : List (RawName × Descriptor)}
    (h : ∀ f ∈ sent, FamilyLegible f) :
    ∃ families, decodeFamilies sent = .ok families ∧ List.Forall₂ FamilySays sent families := by
  induction sent with
  | nil => exact ⟨[], rfl, .nil⟩
  | cons f rest ih =>
    obtain ⟨⟨⟨t, ht⟩, hsettings⟩, hrest⟩ := List.forall_mem_cons.mp h
    obtain ⟨families, hfamilies, hsays⟩ := ih hrest
    obtain ⟨settings, hdecoded, hsaid⟩ := decodeSettings_of_legible hsettings
    obtain ⟨rawName, descriptor⟩ := f
    rw [decodeFamilies, RawName.decode_of_spells ht, hdecoded, hfamilies]
    refine ⟨(t, Dict.ofList settings) :: families, rfl, .cons ⟨ht, ?_⟩ hsays⟩
    rw [entries_ofList_of_settingsSay hsaid]
    exact hsaid

/-- The names of the families are distinct before they are decoded, and so they are afterwards. -/
theorem entries_ofList_of_familiesSay {sent : Dict RawName Descriptor}
    {families : List (Text × Config)} (h : List.Forall₂ FamilySays sent.entries families) :
    (Dict.ofList families).entries = families := by
  apply Dict.entries_ofList_of_nodup
  have hnames : List.Forall₂ RawName.Spells sent.keys (Entries.keys families) :=
    List.forall₂_map_left_iff.mpr (List.forall₂_map_right_iff.mpr (h.imp fun _ _ hf => hf.name))
  exact (List.rel_nodup RawName.spells_biUnique hnames).mp sent.nodup

end SchemaTransfer.HBase
