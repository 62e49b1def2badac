import SchemaTransfer.Proofs.Except
import SchemaTransfer.Proofs.Json.Joined
import SchemaTransfer.Proofs.Text.Utf8
import SchemaTransfer.Schema.SplitKey

/-!
# Split keys in writing

A written split key is a string that UTF-8 can hold or a list of whole numbers from -128 to 255.
Every key is written as one of these and read back as itself.
-/
namespace SchemaTransfer.SplitKey

/-- The whole numbers that stand for a byte, of either sign. -/
def IsByte (i : Int) : Prop := -128 ≤ i ∧ i ≤ 255

instance (i : Int) : Decidable (IsByte i) := inferInstanceAs (Decidable (_ ∧ _))

/-- The byte with the residue of a whole number. -/
def byteOf (i : Int) : UInt8 := UInt8.ofNat (i % 256).toNat

/-- Which key a value stands for. -/
inductive Denotes : Json → Bytes → Prop
  | text {t : Text} {key : Bytes} (h : Utf8.encode? t = some key) : Denotes (.string t) key
  | bytes (ints : List Int) (h : ∀ i ∈ ints, IsByte i) :
    Denotes (.array (ints.map .int)) (ints.map byteOf)

/-- A value that is neither a string nor a list. -/
structure Unsupported (v : Json) : Prop where
  not_string : ∀ t, v ≠ .string t
  not_array : ∀ items, v ≠ .array items

/-- Why a value stands for no key. What is neither a string nor a list is shown in the complaint, if
all whole numbers in it can be. -/
inductive Refused : Json → Failure → Prop
  | text {t : Text} (h : ¬ t.SurrogateFree) : Refused (.string t) (.decode (.splitNotUtf8 t))
  | bytes {items : List Json} (h : ∃ v ∈ items, ∀ i, IsByte i → v ≠ .int i) :
    Refused (.array items) (.decode .splitNotBytes)
  | other {v : Json} (hv : Unsupported v) (hd : v.Everywhere Json.DigitsFit) :
    Refused v (.decode (.unsupportedSplit v))
  | long {v : Json} (hv : Unsupported v) (hd : ¬ v.Everywhere Json.DigitsFit) :
    Refused v .longInteger

theorem byte?_eq_some {v : Json} {b : UInt8} :
    byte? v = some b ↔ ∃ i, v = .int i ∧ IsByte i ∧ b = byteOf i := by
  cases v with
  | int i =>
    simp only [byte?, Json.int.injEq, exists_eq_left']
    by_cases h : IsByte i
    · rw [if_pos (show -128 ≤ i ∧ i ≤ 255 from h), Option.some.injEq]
      exact ⟨fun hb => ⟨h, hb.symm⟩, fun hb => hb.2.symm⟩
    · rw [if_neg (show ¬(-128 ≤ i ∧ i ≤ 255) from h)]
      exact ⟨fun hb => (nomatch hb), fun hb => absurd hb.1 h⟩
  | _ => simp [byte?]

theorem byte?_eq_none {v : Json} : byte? v = none ↔ ∀ i, IsByte i → v ≠ .int i := by
  rw [Option.eq_none_iff_forall_ne_some]
  constructor
  · intro h i hi hv
    exact h (byteOf i) (byte?_eq_some.mpr ⟨i, hv, hi, rfl⟩)
  · intro h b hb
    obtain ⟨i, hv, hi, -⟩ := byte?_eq_some.mp hb
    exact h i hi hv

theorem mapM_byte?_eq_some {items : List Json} {key : Bytes} :
    items.mapM byte? = some key ↔
      ∃ ints : List Int, items = ints.map .int ∧ (∀ i ∈ ints, IsByte i) ∧ key = ints.map byteOf := by
  rw [mapM_eq_some]
  constructor
  · intro h
    induction h with
    | nil => exact ⟨[], rfl, by simp, rfl⟩
    | cons hb _ ih =>
      obtain ⟨i, rfl, hi, rfl⟩ := byte?_eq_some.mp hb
      obtain ⟨ints, rfl, hints, rfl⟩ := ih
      exact ⟨i :: ints, rfl, List.forall_mem_cons.mpr ⟨hi, hints⟩, rfl⟩
  · rintro ⟨ints, rfl, hints, rfl⟩
    rw [List.forall₂_map_left_iff, List.forall₂_map_right_iff, List.forall₂_same]
    exact fun i hi => byte?_eq_some.mpr ⟨i, rfl, hints i hi, rfl⟩

theorem decode_eq_ok {v : Json} {key : Bytes} : decode v = .ok key ↔ Denotes v key := by
  constructor
  · intro h
    unfold decode at h
    split at h
    · split at h
      · next he =>
        cases h
        exact .text he
      · cases h
    · split at h
      · next hb =>
        cases h
        obtain ⟨ints, rfl, hints, rfl⟩ := mapM_byte?_eq_some.mp hb
        exact .bytes ints hints
      · cases h
    · cases h
  · rintro (he | ⟨ints, hints⟩)
    · rw [decode, he]
    · rw [decode, mapM_byte?_eq_some.mpr ⟨ints, rfl, hints, rfl⟩]

theorem Unsupported.decode_eq {v : Json} (hv : Unsupported v) : decode v = .error (unsupported v) := by
  unfold decode
  split
  · exact absurd rfl (hv.not_string _)
  · exact absurd rfl (hv.not_array _)
  · rfl

theorem decode_eq_error {v : Json} {e : Failure} : decode v = .error e ↔ Refused v e := by
  constructor
  · intro h
    unfold decode at h
    split at h
    · next t =>
      split at h
      · cases h
      · next he =>
        cases h
        refine .text fun ht => ?_
        obtain ⟨bytes, hb⟩ := Utf8.encode?_isSome.mpr ht
        rw [he] at hb
        cases hb
    · split at h
      · cases h
      · next hb =>
        cases h
        obtain ⟨w, hw, hn⟩ := mapM_eq_none.mp hb
        exact .bytes ⟨w, hw, byte?_eq_none.mp hn⟩
    · next ht ha =>
      cases h
      rw [unsupported]
      split
      · next hd => exact .other ⟨ht, ha⟩ hd
      · next hd => exact .long ⟨ht, ha⟩ hd
  · rintro (ht | ⟨w, hw, hn⟩ | ⟨hv, hd⟩ | ⟨hv, hd⟩)
    · have he : Utf8.encode? _ = none :=
        Option.eq_none_iff_forall_ne_some.mpr fun bytes hb => ht (Utf8.encode?_isSome.mp ⟨bytes, hb⟩)
      rw [decode, he]
    · rw [decode, mapM_eq_none.mpr ⟨w, hw, byte?_eq_none.mpr hn⟩]
    · rw [hv.decode_eq, unsupported, if_pos hd]
    · rw [hv.decode_eq, unsupported, if_neg hd]

theorem decodeAll_eq_mapM (items : List Json) : decodeAll items = items.mapM decode := by
  induction items with
  | nil => rfl
  | cons v rest ih =>
    rw [decodeAll, List.mapM_cons, ih]
    cases decode v with
    | error e => rfl
    | ok key => cases rest.mapM decode <;> rfl

/-! ## Written keys -/

theorem byteOf_signed (b : UInt8) : byteOf (signed b) = b := by
  have hlt := b.toNat_lt
  have hres : (signed b % 256).toNat = b.toNat := by
    unfold signed
    split <;> omega
  rw [byteOf, hres, UInt8.ofNat_toNat]

theorem isByte_signed (b : UInt8) : IsByte (signed b) := by
  have hlt := b.toNat_lt
  unfold IsByte signed
  split <;> omega

/-- A key is read back byte for byte from what was written for it. -/
theorem denotes_encode (key : Bytes) : Denotes (encode key) key := by
  unfold encode
  split
  · next t ht => exact .text (Utf8.encode?_of_decode ht)
  · have hkey : (key.map signed).map byteOf = key := by
      rw [List.map_map]
      exact List.map_id'' byteOf_signed key
    have hd := Denotes.bytes (key.map signed)
      (List.forall_mem_map.mpr fun b _ => isByte_signed b)
    rwa [hkey, List.map_map] at hd

theorem decode_encode (key : Bytes) : decode (encode key) = .ok key :=
  decode_eq_ok.mpr (denotes_encode key)

theorem fewDigits_of_isByte {i : Int} (h : IsByte i) : Json.FewDigits i := by
  have hlt : i.natAbs < 10 ^ 3 := by
    obtain ⟨hlow, hhigh⟩ := h
    omega
  have hthree : 3 ≤ Text.maxDigits := by decide
  unfold Json.FewDigits
  generalize Text.maxDigits = k at hthree ⊢
  exact hlt.trans_le (Nat.pow_le_pow_right (by decide) hthree)

theorem portable_encode (key : Bytes) : (encode key).Portable := by
  unfold encode
  split
  · next t ht => exact ⟨trivial, trivial, (Utf8.surrogateFree_of_decode ht).unpaired⟩
  · refine Json.portable_array.mpr (List.forall_mem_map.mpr fun b _ => ?_)
    exact ⟨trivial, fewDigits_of_isByte (isByte_signed b), trivial⟩

end SchemaTransfer.SplitKey
