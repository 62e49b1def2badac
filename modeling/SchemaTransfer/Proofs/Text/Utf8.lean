import Mathlib.Data.List.Basic
import SchemaTransfer.Proofs.Text.Surrogate
import SchemaTransfer.Text.Utf8

/-!
# UTF-8 is read and written without loss

Decoding takes exactly one sequence off the head of the bytes, the one that encoding gives for its
code point. Decoding and encoding are therefore inverse to each other, on well-formed bytes and on
text without surrogates.
-/
namespace SchemaTransfer.Utf8

theorem ofNat_eq_of_toNat {n : Nat} {b : UInt8} (h : n = b.toNat) : UInt8.ofNat n = b := by
  rw [h, UInt8.ofNat_toNat]

theorem isContinuation_iff {b : UInt8} :
    isContinuation b = true ↔ 0x80 ≤ b.toNat ∧ b.toNat < 0xC0 := by
  simp [isContinuation]

/-- The bounds on a second byte, by the start bytes that have one of their own. -/
theorem maySecond_iff {start b : UInt8} :
    maySecond start b = true ↔ 0x80 ≤ b.toNat ∧ b.toNat < 0xC0 ∧
      (start.toNat = 0xE0 → 0xA0 ≤ b.toNat) ∧ (start.toNat = 0xED → b.toNat < 0xA0) ∧
      (start.toNat = 0xF0 → 0x90 ≤ b.toNat) ∧ (start.toNat = 0xF4 → b.toNat < 0x90) := by
  simp only [maySecond, Bool.and_eq_true, isContinuation_iff, Bool.not_eq_true',
    Bool.and_eq_false_iff, decide_eq_false_iff_not]
  omega

/-! ## Sequences by their length -/

theorem encodeOne_one {n : Nat} (h : n < 0x80) :
    encodeOne (.ofNat n) = [UInt8.ofNat n] := by
  rw [encodeOne, CodePoint.val_ofNat (by omega)]
  simp [h]

theorem encodeOne_two {n : Nat} (h₁ : 0x80 ≤ n) (h₂ : n < 0x800) :
    encodeOne (.ofNat n) = [UInt8.ofNat (0xC0 + n / 0x40), UInt8.ofNat (0x80 + n % 0x40)] := by
  rw [encodeOne, CodePoint.val_ofNat (by omega)]
  simp only [if_neg (show ¬ n < 0x80 by omega), if_pos h₂]

theorem encodeOne_three {n : Nat} (h₁ : 0x800 ≤ n) (h₂ : n < 0x10000) :
    encodeOne (.ofNat n) = [UInt8.ofNat (0xE0 + n / 0x1000), UInt8.ofNat (0x80 + n / 0x40 % 0x40),
      UInt8.ofNat (0x80 + n % 0x40)] := by
  rw [encodeOne, CodePoint.val_ofNat (by omega)]
  simp only [if_neg (show ¬ n < 0x80 by omega), if_neg (show ¬ n < 0x800 by omega), if_pos h₂]

theorem encodeOne_four {n : Nat} (h₁ : 0x10000 ≤ n) (h₂ : n < 0x110000) :
    encodeOne (.ofNat n) = [UInt8.ofNat (0xF0 + n / 0x40000), UInt8.ofNat (0x80 + n / 0x1000 % 0x40),
      UInt8.ofNat (0x80 + n / 0x40 % 0x40), UInt8.ofNat (0x80 + n % 0x40)] := by
  rw [encodeOne, CodePoint.val_ofNat h₂]
  simp only [if_neg (show ¬ n < 0x80 by omega), if_neg (show ¬ n < 0x800 by omega),
    if_neg (show ¬ n < 0x10000 by omega)]

/-! ## One sequence -/

/-- The well-formed sequences by their length: a start byte and the bytes after it begin with one,
which stands for a number and leaves the rest. -/
inductive Sequence (a : UInt8) (n : Nat) (rest : Bytes) : Bytes → Prop
  | one (ha : a.toNat < 0x80) (hn : n = a.toNat) : Sequence a n rest rest
  | two {b₁ : UInt8} (ha : 0xC2 ≤ a.toNat) (ha' : a.toNat < 0xE0) (h₁ : isContinuation b₁ = true)
    (hn : n = (a.toNat - 0xC0) * 0x40 + (b₁.toNat - 0x80)) : Sequence a n rest (b₁ :: rest)
  | three {b₁ b₂ : UInt8} (ha : 0xE0 ≤ a.toNat) (ha' : a.toNat < 0xF0)
    (h₁ : maySecond a b₁ = true) (h₂ : isContinuation b₂ = true)
    (hn : n = (a.toNat - 0xE0) * 0x1000 + (b₁.toNat - 0x80) * 0x40 + (b₂.toNat - 0x80)) :
    Sequence a n rest (b₁ :: b₂ :: rest)
  | four {b₁ b₂ b₃ : UInt8} (ha : 0xF0 ≤ a.toNat) (ha' : a.toNat < 0xF5)
    (h₁ : maySecond a b₁ = true) (h₂ : isContinuation b₂ = true) (h₃ : isContinuation b₃ = true)
    (hn : n = (a.toNat - 0xF0) * 0x40000 + (b₁.toNat - 0x80) * 0x1000 +
      (b₂.toNat - 0x80) * 0x40 + (b₃.toNat - 0x80)) : Sequence a n rest (b₁ :: b₂ :: b₃ :: rest)

theorem head_of_sequence {a : UInt8} {n : Nat} {rest bytes : Bytes} (h : Sequence a n rest bytes) :
    head a bytes = .point (.ofNat n) rest := by
  cases h with
  | one ha hn => simp only [head, if_pos ha, hn]
  | two ha ha' h₁ hn =>
    simp only [head, h₁, hn, if_true]
    rw [if_neg (by omega), if_neg (by omega), if_pos ha']
  | three ha ha' h₁ h₂ hn =>
    simp only [head, h₁, h₂, hn, if_true]
    rw [if_neg (by omega), if_neg (by omega), if_neg (by omega), if_pos (by omega), if_pos ha']
  | four ha ha' h₁ h₂ h₃ hn =>
    simp only [head, h₁, h₂, h₃, hn, if_true]
    rw [if_neg (by omega), if_neg (by omega), if_neg (by omega), if_pos ha', if_neg (by omega)]

/-- Nothing but a well-formed sequence is taken off the head. -/
theorem sequence_of_head {a : UInt8} {rest bytes : Bytes} {c : CodePoint}
    (h : head a bytes = .point c rest) : ∃ n, c = .ofNat n ∧ Sequence a n rest bytes := by
  unfold head at h
  dsimp only at h
  split at h
  · next ha =>
    injection h with hc hr
    exact ⟨_, hc.symm, hr ▸ .one ha rfl⟩
  split at h
  · cases h
  next ha =>
  split at h
  · next ha' =>
    split at h
    · cases h
    split at h
    · next h₁ =>
      injection h with hc hr
      exact ⟨_, hc.symm, hr ▸ .two (by omega) ha' h₁ rfl⟩
    · cases h
  next ha' =>
  split at h
  · next ha'' =>
    split at h
    · cases h
    split at h
    · next h₁ =>
      split at h
      · cases h
      split at h
      · next h₂ =>
        split at h
        · next h₃ =>
          injection h with hc hr
          exact ⟨_, hc.symm, hr ▸ .three (by omega) h₃ h₁ h₂ rfl⟩
        · split at h
          · cases h
          split at h
          · next h₃ =>
            injection h with hc hr
            exact ⟨_, hc.symm, hr ▸ .four (by omega) ha'' h₁ h₂ h₃ rfl⟩
          · cases h
      · cases h
    · cases h
  · cases h

theorem encodeOne_of_sequence {a : UInt8} {n : Nat} {rest bytes : Bytes}
    (h : Sequence a n rest bytes) :
    a :: bytes = encodeOne (.ofNat n) ++ rest ∧ (CodePoint.ofNat n).isSurrogate = false := by
  rw [CodePoint.isSurrogate_eq_false_iff]
  cases h with
  | one ha hn =>
    rw [encodeOne_one (by omega), CodePoint.val_ofNat (by omega), ofNat_eq_of_toNat hn]
    exact ⟨rfl, by omega⟩
  | @two b₁ ha ha' h₁ hn =>
    rw [isContinuation_iff] at h₁
    rw [encodeOne_two (by omega) (by omega), CodePoint.val_ofNat (by omega),
      ofNat_eq_of_toNat (b := a) (by omega), ofNat_eq_of_toNat (b := b₁) (by omega)]
    exact ⟨rfl, by omega⟩
  | @three b₁ b₂ ha ha' h₁ h₂ hn =>
    rw [maySecond_iff] at h₁
    rw [isContinuation_iff] at h₂
    rw [encodeOne_three (by omega) (by omega), CodePoint.val_ofNat (by omega),
      ofNat_eq_of_toNat (b := a) (by omega), ofNat_eq_of_toNat (b := b₁) (by omega),
      ofNat_eq_of_toNat (b := b₂) (by omega)]
    exact ⟨rfl, by omega⟩
  | @four b₁ b₂ b₃ ha ha' h₁ h₂ h₃ hn =>
    rw [maySecond_iff] at h₁
    rw [isContinuation_iff] at h₂ h₃
    rw [encodeOne_four (by omega) (by omega), CodePoint.val_ofNat (by omega),
      ofNat_eq_of_toNat (b := a) (by omega), ofNat_eq_of_toNat (b := b₁) (by omega),
      ofNat_eq_of_toNat (b := b₂) (by omega), ofNat_eq_of_toNat (b := b₃) (by omega)]
    exact ⟨rfl, by omega⟩

/-- What decoding takes off the head is what encoding gives for it. -/
theorem encodeOne_of_head {start : UInt8} {rest rest' : Bytes} {c : CodePoint}
    (h : head start rest = .point c rest') :
    start :: rest = encodeOne c ++ rest' ∧ c.isSurrogate = false := by
  obtain ⟨n, rfl, hn⟩ := sequence_of_head h
  exact encodeOne_of_sequence hn

theorem toNat_ofNat_of_lt {n : Nat} (h : n < 0x100) : (UInt8.ofNat n).toNat = n := by
  rw [UInt8.toNat_ofNat']
  exact Nat.mod_eq_of_lt h

theorem isContinuation_ofNat {n : Nat} (h : n < 0x40) :
    isContinuation (UInt8.ofNat (0x80 + n)) = true := by
  rw [isContinuation_iff, toNat_ofNat_of_lt (by omega)]
  omega

theorem sequence_of_encodeOne {n : Nat} (hlt : n < 0x110000) (h : n < 0xD800 ∨ 0xE000 ≤ n) :
    ∃ start tail, encodeOne (.ofNat n) = start :: tail ∧
      ∀ rest, Sequence start n rest (tail ++ rest) := by
  by_cases h₁ : n < 0x80
  · have ha := toNat_ofNat_of_lt (show n < 0x100 by omega)
    exact ⟨_, _, encodeOne_one h₁, fun _ => .one (by omega) ha.symm⟩
  by_cases h₂ : n < 0x800
  · have ha := toNat_ofNat_of_lt (show 0xC0 + n / 0x40 < 0x100 by omega)
    have hb := toNat_ofNat_of_lt (show 0x80 + n % 0x40 < 0x100 by omega)
    have hc := isContinuation_ofNat (show n % 0x40 < 0x40 by omega)
    exact ⟨_, _, encodeOne_two (by omega) h₂, fun _ => .two (by omega) (by omega) hc (by omega)⟩
  by_cases h₃ : n < 0x10000
  · have ha := toNat_ofNat_of_lt (show 0xE0 + n / 0x1000 < 0x100 by omega)
    have hb := toNat_ofNat_of_lt (show 0x80 + n / 0x40 % 0x40 < 0x100 by omega)
    have hb' := toNat_ofNat_of_lt (show 0x80 + n % 0x40 < 0x100 by omega)
    have hm : maySecond (UInt8.ofNat (0xE0 + n / 0x1000))
        (UInt8.ofNat (0x80 + n / 0x40 % 0x40)) = true := by
      rw [maySecond_iff, ha, hb]
      omega
    have hc := isContinuation_ofNat (show n % 0x40 < 0x40 by omega)
    exact ⟨_, _, encodeOne_three (by omega) h₃,
      fun _ => .three (by omega) (by omega) hm hc (by omega)⟩
  · have ha := toNat_ofNat_of_lt (show 0xF0 + n / 0x40000 < 0x100 by omega)
    have hb := toNat_ofNat_of_lt (show 0x80 + n / 0x1000 % 0x40 < 0x100 by omega)
    have hb' := toNat_ofNat_of_lt (show 0x80 + n / 0x40 % 0x40 < 0x100 by omega)
    have hb'' := toNat_ofNat_of_lt (show 0x80 + n % 0x40 < 0x100 by omega)
    have hm : maySecond (UInt8.ofNat (0xF0 + n / 0x40000))
        (UInt8.ofNat (0x80 + n / 0x1000 % 0x40)) = true := by
      rw [maySecond_iff, ha, hb]
      omega
    have hc := isContinuation_ofNat (show n / 0x40 % 0x40 < 0x40 by omega)
    have hc' := isContinuation_ofNat (show n % 0x40 < 0x40 by omega)
    exact ⟨_, _, encodeOne_four (by omega) hlt,
      fun _ => .four (by omega) (by omega) hm hc hc' (by omega)⟩

/-- The sequence of a code point is taken off the head of whatever it begins. -/
theorem head_of_encodeOne {c : CodePoint} (h : c.isSurrogate = false) :
    ∃ start tail, encodeOne c = start :: tail ∧
      ∀ rest, head start (tail ++ rest) = .point c rest := by
  rw [CodePoint.isSurrogate_eq_false_iff] at h
  obtain ⟨start, tail, hencode, hseq⟩ := sequence_of_encodeOne c.lt h
  rw [CodePoint.ofNat_val] at hencode
  refine ⟨start, tail, hencode, fun rest => ?_⟩
  rw [head_of_sequence (hseq rest), CodePoint.ofNat_val]

/-! ## Whole texts -/

theorem encode?_cons {c : CodePoint} {t : Text} {bytes : Bytes} :
    encode? (c :: t) = some bytes ↔
      c.isSurrogate = false ∧ ∃ rest, encode? t = some rest ∧ encodeOne c ++ rest = bytes := by
  rw [encode?]
  cases h : c.isSurrogate <;> simp

theorem encode?_isSome {t : Text} : (∃ bytes, encode? t = some bytes) ↔ t.SurrogateFree := by
  induction t with
  | nil => simp [encode?, Text.SurrogateFree]
  | cons c t ih =>
    simp only [Text.SurrogateFree, List.forall_mem_cons] at ih ⊢
    rw [← ih]
    constructor
    · rintro ⟨bytes, h⟩
      obtain ⟨hc, rest, ht, -⟩ := encode?_cons.mp h
      exact ⟨hc, rest, ht⟩
    · rintro ⟨hc, rest, ht⟩
      exact ⟨_, encode?_cons.mpr ⟨hc, rest, ht, rfl⟩⟩

theorem encode?_of_decodeWithin {total : Nat} {bytes : Bytes} {t : Text}
    (h : decodeWithin total bytes = .ok t) : encode? t = some bytes := by
  fun_induction decodeWithin total bytes generalizing t with
  | case1 =>
    cases h
    rfl
  | case2 start rest c rest' hh ih =>
    obtain ⟨hb, hc⟩ := encodeOne_of_head hh
    cases hd : decodeWithin total rest' with
    | error e =>
      rw [hd] at h
      cases h
    | ok t' =>
      rw [hd] at h
      cases h
      exact encode?_cons.mpr ⟨hc, rest', ih hd, hb.symm⟩
  | case3 => cases h

/-- Bytes that can be decoded are the encoding of their text. -/
theorem encode?_of_decode {bytes : Bytes} {t : Text} (h : decode bytes = .ok t) :
    encode? t = some bytes :=
  encode?_of_decodeWithin h

theorem surrogateFree_of_decode {bytes : Bytes} {t : Text} (h : decode bytes = .ok t) :
    t.SurrogateFree :=
  encode?_isSome.mp ⟨bytes, encode?_of_decode h⟩

theorem decodeWithin_of_encode? {total : Nat} {t : Text} {bytes : Bytes}
    (h : encode? t = some bytes) : decodeWithin total bytes = .ok t := by
  induction t generalizing bytes with
  | nil =>
    cases h
    rw [decodeWithin]
  | cons c t ih =>
    obtain ⟨hc, rest, ht, rfl⟩ := encode?_cons.mp h
    obtain ⟨start, tail, he, hh⟩ := head_of_encodeOne hc
    rw [he, List.cons_append, decodeWithin]
    split
    · next c' rest' h' =>
      rw [hh rest] at h'
      injection h' with hc' hr'
      subst hc' hr'
      rw [ih ht]
      rfl
    · next h' =>
      rw [hh rest] at h'
      cases h'

/-- The encoding of a text is decoded to that text. -/
theorem decode_of_encode? {t : Text} {bytes : Bytes} (h : encode? t = some bytes) :
    decode bytes = .ok t :=
  decodeWithin_of_encode? h

end SchemaTransfer.Utf8
