import SchemaTransfer.Proofs.Schema.SplitKey
import SchemaTransfer.Proofs.Text.WellFormed

/-!
# The canonical form of a split key

A key can be put in writing in many ways, since a byte may have either sign and a list may spell
text. One of these ways is canonical, and it is the one in which keys are written. Two written
values stand for the same key if and only if they have the same canonical form.
-/
namespace SchemaTransfer.SplitKey

/-- The integers are the bytes in their order, those from 80 to FF as negative numbers. -/
def SignedBytes (key : Bytes) (ints : List Int) : Prop :=
  List.Forall₂ (fun b i => -128 ≤ i ∧ i ≤ 127 ∧ i % 256 = (b.toNat : Int)) key ints

/-- The canonical form of a value that stands for a key. A string is its own. A list becomes the
string that its bytes spell, or if they spell none, each entry becomes its least residue. -/
inductive Canonical : Json → Json → Prop
  | text (t : Text) : Canonical (.string t) (.string t)
  | spelled {ints : List Int} {t : Text} (h : Utf8.Spells t (ints.map byteOf)) :
    Canonical (.array (ints.map .int)) (.string t)
  | residues {ints : List Int} (h : ¬ Utf8.WellFormed (ints.map byteOf)) :
    Canonical (.array (ints.map .int)) (.array (ints.map fun i => .int (i.bmod 256)))

/-! ## Written forms -/

theorem encode_eq_string {key : Bytes} {t : Text} :
    encode key = .string t ↔ Utf8.Spells t key := by
  rw [← Utf8.decode_eq_ok_iff, encode]
  cases Utf8.decode key with
  | ok u => rw [Json.string.injEq, Except.ok.injEq]
  | error malformed => exact ⟨fun h => (nomatch h), fun h => (nomatch h)⟩

theorem encode_of_not_wellFormed {key : Bytes} (h : ¬ Utf8.WellFormed key) :
    encode key = .array (key.map fun b => .int (signed b)) := by
  obtain ⟨malformed, hdecode⟩ := Utf8.exists_decode_eq_error_iff.mpr h
  rw [encode, hdecode]

theorem signedBytes_signed (key : Bytes) : SignedBytes key (key.map signed) := by
  refine List.forall₂_map_right_iff.mpr (List.forall₂_same.mpr fun b _ => ?_)
  have hlt := b.toNat_lt
  unfold signed
  split <;> omega

theorem signed_byteOf (i : Int) : signed (byteOf i) = i.bmod 256 := by
  have hlt : (i % 256).toNat < 256 := by omega
  have hbyte : (byteOf i).toNat = (i % 256).toNat := Utf8.toNat_ofNat_of_lt hlt
  rw [signed, hbyte, Int.bmod_def]
  split <;> split <;> omega

/-- Each entry of a list that spells nothing is written as its least residue. -/
theorem encode_residues {ints : List Int} (h : ¬ Utf8.WellFormed (ints.map byteOf)) :
    encode (ints.map byteOf) = .array (ints.map fun i => .int (i.bmod 256)) := by
  rw [encode_of_not_wellFormed h, List.map_map]
  exact congrArg Json.array (List.map_congr_left fun i _ => congrArg Json.int (signed_byteOf i))

/-! ## Canonical forms -/

theorem ints_injective {ints ints' : List Int} (h : ints.map Json.int = ints'.map Json.int) :
    ints = ints' :=
  List.map_injective_iff.mpr (fun _ _ hi => Json.int.inj hi) h

/-- A value that stands for a key has one canonical form, and the key is written in it. -/
theorem canonical_iff {v u : Json} {key : Bytes} (h : Denotes v key) :
    Canonical v u ↔ encode key = u := by
  cases h with
  | @text t _ hkey =>
    have hencode : encode key = .string t :=
      encode_eq_string.mpr (Utf8.encode?_eq_some_iff.mp hkey)
    rw [hencode]
    constructor
    · intro hu
      cases hu
      rfl
    · rintro rfl
      exact .text t
  | bytes ints hints =>
    constructor
    · intro hu
      generalize hv : Json.array (ints.map .int) = v at hu
      cases hu with
      | text t => cases hv
      | spelled hspells =>
        rw [← ints_injective (Json.array.inj hv)] at hspells
        exact encode_eq_string.mpr hspells
      | residues hnone =>
        rw [← ints_injective (Json.array.inj hv)] at hnone ⊢
        exact encode_residues hnone
    · rintro rfl
      by_cases hspelled : Utf8.WellFormed (ints.map byteOf)
      · obtain ⟨t, ht⟩ := hspelled
        rw [encode_eq_string.mpr ht]
        exact .spelled ht
      · rw [encode_residues hspelled]
        exact .residues hspelled

/-- Every key is read back from what is written for it: a string if the key is UTF-8, and else its
bytes with their signs. Any other value that stands for a key stands for the one that its canonical
form is written for. -/
theorem encode_canonical :
    (∀ key, decode (encode key) = .ok key) ∧
    (∀ key t, encode key = .string t ↔ Utf8.Spells t key) ∧
    (∀ key, ¬ Utf8.WellFormed key →
      ∃ ints : List Int, encode key = .array (ints.map .int) ∧ SignedBytes key ints) ∧
    (∀ v key, decode v = .ok key → ∀ u, Canonical v u ↔ encode key = u) ∧
    ∀ v v' key key', decode v = .ok key → decode v' = .ok key' →
      (key = key' ↔ ∃ u, Canonical v u ∧ Canonical v' u) := by
  refine ⟨decode_encode, fun key t => encode_eq_string, fun key h => ?_,
    fun v key h u => canonical_iff (decode_eq_ok.mp h), fun v v' key key' h h' => ?_⟩
  · refine ⟨key.map signed, ?_, signedBytes_signed key⟩
    rw [encode_of_not_wellFormed h, List.map_map]
    rfl
  · simp only [canonical_iff (decode_eq_ok.mp h), canonical_iff (decode_eq_ok.mp h')]
    constructor
    · rintro rfl
      exact ⟨_, rfl, rfl⟩
    · rintro ⟨u, rfl, hu⟩
      have hread := decode_encode key'
      rw [hu, decode_encode] at hread
      exact Except.ok.inj hread

/-- Two lists of different signs spell `é`, and a list that spells nothing has a canonical form with
negative numbers alone. -/
theorem encode_canonical_signs :
    decode (.array [.int 195, .int (-87)]) = .ok [0xC3, 0xA9] ∧
      Canonical (.array [.int 195, .int (-87)]) (.string "é") ∧
      decode (.array [.int 255, .int (-1)]) = .ok [0xFF, 0xFF] ∧
      Canonical (.array [.int 255, .int (-1)]) (.array [.int (-1), .int (-1)]) ∧
      ∃ u, Canonical (.array [.int 195, .int (-87)]) u ∧
        Canonical (.array [.int (-61), .int 169]) u := by
  have hspelled : decode (.array [.int 195, .int (-87)]) = .ok [0xC3, 0xA9] := rfl
  have hnone : decode (.array [.int 255, .int (-1)]) = .ok [0xFF, 0xFF] := rfl
  obtain ⟨-, -, -, hcanonical, hsame⟩ := encode_canonical
  exact ⟨hspelled, (hcanonical _ _ hspelled _).mpr (by cbv), hnone,
    (hcanonical _ _ hnone _).mpr (by cbv), (hsame _ _ _ _ hspelled rfl).mp rfl⟩

end SchemaTransfer.SplitKey
