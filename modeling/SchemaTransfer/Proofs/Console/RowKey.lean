import SchemaTransfer.Console.RowKey
import SchemaTransfer.Proofs.Schema.CanonicalSplit

/-!
# What is shown of a row key

A malformed sequence is passed over as a whole. Behind its first byte it has none but bytes that go
on with a sequence, and no sequence begins with one of these, so what is shown of a key is the same as
if it were looked at byte by byte: the code point of every form, and an escape for every byte that
belongs to none. A column has room for 32 code points of this.
-/
namespace SchemaTransfer

namespace Utf8

/-- The bytes are scanned from the left. A form becomes its code point, and a byte becomes an escape
where no form begins. -/
inductive Scanned : Bytes → Text → Prop
  | nil : Scanned [] []
  | point {c : CodePoint} {s rest : Bytes} {t : Text} (hc : Form c s) (h : Scanned rest t) :
    Scanned (s ++ rest) (c :: t)
  | stray {b : UInt8} {rest : Bytes} {t : Text} (hb : ∀ c s, Form c s → ¬ s <+: b :: rest)
    (h : Scanned rest t) : Scanned (b :: rest) (byteEscape b ++ t)

variable {start : UInt8} {rest rest' bytes : Bytes} {c : CodePoint} {t : Text}

/-! ## Forms and malformed sequences -/

/-- What is taken off the head is the form that stands there. -/
theorem head_eq_point_iff :
    head start rest = .point c rest' ↔ ∃ s, Form c s ∧ start :: rest = s ++ rest' := by
  constructor
  · intro h
    obtain ⟨hbytes, hsurrogate⟩ := encodeOne_of_head h
    exact ⟨encodeOne c, form_iff.mpr ⟨hsurrogate, rfl⟩, hbytes⟩
  · intro h
    obtain ⟨s, hs, hbytes⟩ := h
    obtain ⟨hsurrogate, hencode⟩ := form_iff.mp hs
    obtain ⟨a, tail, hform, hhead⟩ := head_of_encodeOne hsurrogate
    rw [← hencode, hform, List.cons_append, List.cons.injEq] at hbytes
    rw [hbytes.1, hbytes.2, hhead]

theorem not_prefix_of_malformed {reason : Reason} {n : Nat}
    (h : head start rest = .malformed reason n) : ∀ c s, Form c s → ¬ s <+: start :: rest := by
  intro c s hs hprefix
  obtain ⟨behind, hbytes⟩ := hprefix
  have hpoint : head start rest = .point c behind := head_eq_point_iff.mpr ⟨s, hs, hbytes.symm⟩
  rw [h] at hpoint
  cases hpoint

theorem isContinuation_of_maySecond {a b : UInt8} (h : maySecond a b = true) :
    isContinuation b = true := by
  have hb := maySecond_iff.mp h
  exact isContinuation_iff.mpr ⟨hb.1, hb.2.1⟩

/-- A malformed sequence has its start byte and behind it bytes that go on with a sequence. -/
theorem continuation_of_malformed {reason : Reason} {n : Nat}
    (h : head start rest = .malformed reason n) :
    0 < n ∧ ∀ b ∈ rest.take (n - 1), isContinuation b = true := by
  unfold head at h
  dsimp only at h
  split at h
  · cases h
  split at h
  · cases h
    simp
  split at h
  · split at h
    · cases h
      simp
    · split at h
      · cases h
      · cases h
        simp
  split at h
  · split at h
    · cases h
      simp
    · split at h
      · next hsecond =>
        have h₁ := isContinuation_of_maySecond hsecond
        split at h
        · cases h
          simp [h₁]
        · split at h
          · next h₂ =>
            split at h
            · cases h
            · split at h
              · cases h
                simp [h₁, h₂]
              · split at h
                · cases h
                · cases h
                  simp [h₁, h₂]
          · cases h
            simp [h₁]
      · cases h
        simp
  · cases h
    simp

/-- No sequence begins with a byte that goes on with one. -/
theorem head_of_continuation {b : UInt8} (h : isContinuation b = true) (rest : Bytes) :
    head b rest = .malformed .invalidStart 1 := by
  have hb := isContinuation_iff.mp h
  unfold head
  dsimp only
  rw [if_neg (by omega), if_pos (by omega)]

/-! ## Byte by byte -/

theorem decodeWith_of_point (stray : UInt8 → Text) (h : head start rest = .point c rest') :
    decodeWith stray (start :: rest) = c :: decodeWith stray rest' := by
  rw [decodeWith]
  split
  · next heq =>
    cases h.symm.trans heq
    rfl
  · next heq => cases h.symm.trans heq

theorem decodeWith_continuations (stray : UInt8 → Text) {s : Bytes}
    (hs : ∀ b ∈ s, isContinuation b = true) (rest : Bytes) :
    decodeWith stray (s ++ rest) = s.flatMap stray ++ decodeWith stray rest := by
  induction s with
  | nil => rfl
  | cons b s ih =>
    have hb := head_of_continuation (hs b List.mem_cons_self) (s ++ rest)
    have hrest := ih fun d hd => hs d (List.mem_cons_of_mem b hd)
    rw [List.cons_append, decodeWith]
    split
    · next heq => cases hb.symm.trans heq
    · next heq =>
      cases hb.symm.trans heq
      rw [List.flatMap_cons, List.append_assoc, ← hrest]
      simp

/-- Of a malformed sequence the first byte may be passed over alone. -/
theorem decodeWith_of_malformed (stray : UInt8 → Text) {reason : Reason} {n : Nat}
    (h : head start rest = .malformed reason n) :
    decodeWith stray (start :: rest) = stray start ++ decodeWith stray rest := by
  obtain ⟨hpos, hcontinue⟩ := continuation_of_malformed h
  have htake : (start :: rest).take n = start :: rest.take (n - 1) := by
    rw [← List.take_succ_cons, Nat.sub_add_cancel hpos]
  have hwhole := decodeWith_continuations stray hcontinue (rest.drop (n - 1))
  rw [List.take_append_drop] at hwhole
  rw [hwhole, decodeWith]
  split
  · next heq => cases h.symm.trans heq
  · next heq =>
    cases h.symm.trans heq
    rw [htake, List.flatMap_cons, List.append_assoc]

theorem scanned_decodeEscaped (bytes : Bytes) : Scanned bytes (decodeEscaped bytes) := by
  induction hn : bytes.length using Nat.strong_induction_on generalizing bytes with
  | _ n ih =>
    subst hn
    cases bytes with
    | nil =>
      rw [decodeEscaped, decodeWith]
      exact .nil
    | cons start rest =>
      cases hhead : head start rest with
      | point c rest' =>
        obtain ⟨s, hs, hbytes⟩ := head_eq_point_iff.mp hhead
        have hle := length_le_of_head hhead
        rw [decodeEscaped, decodeWith_of_point _ hhead, hbytes]
        exact .point hs (ih _ (Nat.lt_succ_of_le hle) rest' rfl)
      | malformed reason n =>
        rw [decodeEscaped, decodeWith_of_malformed _ hhead]
        exact .stray (not_prefix_of_malformed hhead) (ih _ (Nat.lt_succ_self _) rest rfl)

theorem Form.ne_nil {s : Bytes} (h : Form c s) : s ≠ [] := by
  cases h <;> simp

/-- A scan has one outcome. -/
theorem Scanned.eq_decodeEscaped (h : Scanned bytes t) : t = decodeEscaped bytes := by
  induction h with
  | nil => rw [decodeEscaped, decodeWith]
  | @point c s rest t hc _ ih =>
    obtain ⟨a, tail, rfl⟩ := List.exists_cons_of_ne_nil hc.ne_nil
    have hhead : head a (tail ++ rest) = .point c rest :=
      head_eq_point_iff.mpr ⟨_, hc, rfl⟩
    rw [List.cons_append, decodeEscaped, decodeWith_of_point _ hhead, ih, decodeEscaped]
  | @stray b rest t hb _ ih =>
    cases hhead : head b rest with
    | point c rest' =>
      obtain ⟨s, hs, hbytes⟩ := head_eq_point_iff.mp hhead
      exact absurd ⟨rest', hbytes.symm⟩ (hb c s hs)
    | malformed reason n =>
      rw [decodeEscaped, decodeWith_of_malformed _ hhead, ih, decodeEscaped]

theorem Spells.scanned (h : Spells t bytes) : Scanned bytes t := by
  induction h with
  | nil => exact .nil
  | cons hc _ ih => exact .point hc ih

end Utf8

/-! ## Cutting -/

namespace Text

variable {t : Text} {n : Nat}

theorem clip_of_le (h : t.length ≤ n) : t.clip n = t := by
  rw [clip, if_pos (Or.inr (by omega)), upTo_eq_take, List.take_of_length_le h]

theorem clip_of_narrow (t : Text) (h : n ≤ 3) : t.clip n = t.take n := by
  rw [clip, if_pos (Or.inl (by omega)), upTo_eq_take]

theorem clip_of_lt (h : 3 < n) (hlong : n < t.length) :
    t.clip n = t.take (n - 3) ++ "..." := by
  have hroom : (n : Int) - 3 = ((n - 3 : Nat) : Int) := by omega
  rw [clip, if_neg (by omega), hroom, upTo_eq_take, ellipsis]

theorem length_clip_le (t : Text) (n : Nat) : (t.clip n).length ≤ n := by
  by_cases hshort : t.length ≤ n
  · rw [clip_of_le hshort]
    exact hshort
  · by_cases hnarrow : n ≤ 3
    · rw [clip_of_narrow t hnarrow]
      exact List.length_take_le n t
    · have hdots : (("..." : Text)).length = 3 := rfl
      rw [clip_of_lt (by omega) (by omega), List.length_append, List.length_take, hdots]
      omega

theorem clip_eq_self_iff : t.clip n = t ↔ t.length ≤ n := by
  constructor
  · intro h
    rw [← h]
    exact length_clip_le t n
  · exact clip_of_le

end Text

/-! ## Row keys -/

theorem rowKeyText_of_encode {key : Bytes} {t : Text} (h : SplitKey.encode key = .string t) :
    rowKeyText key = t.clip rowKeyWidth := by
  have hspells : Utf8.Spells t key := SplitKey.encode_eq_string.mp h
  rw [rowKeyText, ← hspells.scanned.eq_decodeEscaped]

/-- A row key is shown as its scan, which is cut if it does not fit into 32 code points; a key that is
written as a string which fits is shown as that string. Any text that is too long for its column is
cut, and three dots stand at the end where there is room for more than these. -/
theorem rowKeyText_shows_scan :
    (∀ key, ∃ d, (∀ e, Utf8.Scanned key e ↔ e = d) ∧ (rowKeyText key).length ≤ 32 ∧
      (d.length ≤ 32 → rowKeyText key = d) ∧
      (32 < d.length → rowKeyText key = d.take 29 ++ "...") ∧
      ∀ t, SplitKey.encode key = .string t → t.length ≤ 32 → rowKeyText key = t) ∧
    ∀ (t : Text) (n : Nat), (t.clip n).length ≤ n ∧ (t.clip n = t ↔ t.length ≤ n) ∧
      (n < t.length → (n ≤ 3 → t.clip n = t.take n) ∧
        (3 < n → t.clip n = t.take (n - 3) ++ "...")) := by
  constructor
  · intro key
    have hscan := Utf8.scanned_decodeEscaped key
    refine ⟨Utf8.decodeEscaped key, fun e => ?_, Text.length_clip_le _ 32, Text.clip_of_le,
      Text.clip_of_lt (by decide), fun t ht hfits => ?_⟩
    · constructor
      · exact Utf8.Scanned.eq_decodeEscaped
      · rintro rfl
        exact hscan
    · exact (rowKeyText_of_encode ht).trans (Text.clip_of_le hfits)
  · intro t n
    exact ⟨Text.length_clip_le t n, Text.clip_eq_self_iff,
      fun hlong => ⟨Text.clip_of_narrow t, fun hroom => Text.clip_of_lt hroom hlong⟩⟩

/-- Thirty letters and behind them a sequence that is cut off. -/
def cutSequence : Bytes := List.replicate 30 0x61 ++ [0xE2, 0x82]

/-- The two bytes of the cut sequence do not fit any more, while a key that is UTF-8 does. -/
theorem rowKeyText_shows_scan_cut :
    (∃ d, Utf8.Scanned cutSequence d ∧ 32 < d.length ∧
      rowKeyText cutSequence = d.take 29 ++ "...") ∧
    SplitKey.encode [0xC3, 0xA9] = .string "é" ∧ rowKeyText [0xC3, 0xA9] = "é" ∧
    Text.clip "abcde" (4 : Nat) = "a..." := by
  obtain ⟨hkeys, htexts⟩ := rowKeyText_shows_scan
  have hlong : 32 < (Utf8.decodeEscaped cutSequence).length := by decide +kernel
  have hencode : SplitKey.encode [0xC3, 0xA9] = .string "é" := by cbv
  refine ⟨?_, hencode, ?_, ((htexts "abcde" 4).2.2 (by decide)).2 (by decide)⟩
  · obtain ⟨d, hscan, -, -, hcut, -⟩ := hkeys cutSequence
    have hd := (hscan _).mp (Utf8.scanned_decodeEscaped cutSequence)
    rw [hd] at hlong
    exact ⟨d, (hscan d).mpr rfl, hlong, hcut hlong⟩
  · obtain ⟨_, -, -, -, -, hstring⟩ := hkeys [0xC3, 0xA9]
    exact hstring "é" hencode (by decide)

end SchemaTransfer
