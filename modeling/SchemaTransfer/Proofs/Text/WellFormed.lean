import SchemaTransfer.Proofs.Text.Utf8

/-!
# Well-formed UTF-8

What UTF-8 is, said without a decoder: every code point has one form, its bits spread over a start
byte and the bytes that go on with it. Decoding accepts exactly the bytes that are such forms one
after another, and encoding gives exactly these.
-/
namespace SchemaTransfer.Utf8

/-- The form of a code point, by its length. The start byte says how many bytes go on, each of which
carries six bits. No form is longer than the code point needs, and a surrogate has none. -/
inductive Form (c : CodePoint) : Bytes → Prop
  | one {a : UInt8} (ha : a.toNat < 0x80) (hc : c.val = a.toNat) : Form c [a]
  | two {a b₁ : UInt8} (ha : 0xC0 ≤ a.toNat) (ha' : a.toNat < 0xE0) (h₁ : isContinuation b₁ = true)
    (hc : c.val = (a.toNat - 0xC0) * 0x40 + (b₁.toNat - 0x80)) (hlong : 0x80 ≤ c.val) :
    Form c [a, b₁]
  | three {a b₁ b₂ : UInt8} (ha : 0xE0 ≤ a.toNat) (ha' : a.toNat < 0xF0)
    (h₁ : isContinuation b₁ = true) (h₂ : isContinuation b₂ = true)
    (hc : c.val = (a.toNat - 0xE0) * 0x1000 + (b₁.toNat - 0x80) * 0x40 + (b₂.toNat - 0x80))
    (hlong : 0x800 ≤ c.val) (hsurrogate : c.isSurrogate = false) : Form c [a, b₁, b₂]
  | four {a b₁ b₂ b₃ : UInt8} (ha : 0xF0 ≤ a.toNat) (ha' : a.toNat < 0xF8)
    (h₁ : isContinuation b₁ = true) (h₂ : isContinuation b₂ = true) (h₃ : isContinuation b₃ = true)
    (hc : c.val = (a.toNat - 0xF0) * 0x40000 + (b₁.toNat - 0x80) * 0x1000 +
      (b₂.toNat - 0x80) * 0x40 + (b₃.toNat - 0x80)) (hlong : 0x10000 ≤ c.val) :
    Form c [a, b₁, b₂, b₃]

/-- The bytes are the forms of the code points of a text, in their order. -/
inductive Spells : Text → Bytes → Prop
  | nil : Spells [] []
  | cons {c : CodePoint} {s : Bytes} {t : Text} {bytes : Bytes} (hc : Form c s)
    (ht : Spells t bytes) : Spells (c :: t) (s ++ bytes)

/-- The bytes spell some text. -/
def WellFormed (bytes : Bytes) : Prop := ∃ t, Spells t bytes

/-! ## One form -/

/-- The bounds on start and second bytes leave out exactly the forms that are too long, surrogates
and numbers that are too great. -/
theorem Form.sequence {c : CodePoint} {s : Bytes} (h : Form c s) :
    ∃ a tail, s = a :: tail ∧ Sequence a c.val [] tail := by
  have hlt := c.lt
  cases h with
  | one ha hc => exact ⟨_, _, rfl, .one ha hc⟩
  | two ha ha' h₁ hc hlong =>
    have hb₁ := isContinuation_iff.mp h₁
    exact ⟨_, _, rfl, .two (by omega) ha' h₁ hc⟩
  | @three a b₁ b₂ ha ha' h₁ h₂ hc hlong hsurrogate =>
    have hb₁ := isContinuation_iff.mp h₁
    have hb₂ := isContinuation_iff.mp h₂
    rw [CodePoint.isSurrogate_eq_false_iff] at hsurrogate
    have hm : maySecond a b₁ = true := maySecond_iff.mpr (by omega)
    exact ⟨_, _, rfl, .three ha ha' hm h₂ hc⟩
  | @four a b₁ b₂ b₃ ha ha' h₁ h₂ h₃ hc hlong =>
    have hb₁ := isContinuation_iff.mp h₁
    have hb₂ := isContinuation_iff.mp h₂
    have hb₃ := isContinuation_iff.mp h₃
    have hm : maySecond a b₁ = true := maySecond_iff.mpr (by omega)
    exact ⟨_, _, rfl, .four ha (by omega) hm h₂ h₃ hc⟩

theorem Sequence.form {a : UInt8} {tail : Bytes} {c : CodePoint} (h : Sequence a c.val [] tail)
    (hsurrogate : c.isSurrogate = false) : Form c (a :: tail) := by
  cases h with
  | one ha hn => exact .one ha hn
  | two ha ha' h₁ hn =>
    exact .two (by omega) ha' h₁ hn (by omega)
  | three ha ha' h₁ h₂ hn =>
    have hm := maySecond_iff.mp h₁
    exact .three ha ha' (isContinuation_iff.mpr ⟨hm.1, hm.2.1⟩) h₂ hn (by omega) hsurrogate
  | four ha ha' h₁ h₂ h₃ hn =>
    have hm := maySecond_iff.mp h₁
    exact .four ha (by omega) (isContinuation_iff.mpr ⟨hm.1, hm.2.1⟩) h₂ h₃ hn (by omega)

theorem form_iff {c : CodePoint} {s : Bytes} :
    Form c s ↔ c.isSurrogate = false ∧ encodeOne c = s := by
  constructor
  · intro h
    obtain ⟨a, tail, rfl, hseq⟩ := h.sequence
    obtain ⟨hbytes, hsurrogate⟩ := encodeOne_of_sequence hseq
    rw [CodePoint.ofNat_val, List.append_nil] at hbytes
    rw [CodePoint.ofNat_val] at hsurrogate
    exact ⟨hsurrogate, hbytes.symm⟩
  · rintro ⟨hsurrogate, rfl⟩
    have hval := CodePoint.isSurrogate_eq_false_iff.mp hsurrogate
    obtain ⟨a, tail, hencode, hseq⟩ := sequence_of_encodeOne c.lt hval
    have hform := hseq []
    rw [List.append_nil] at hform
    rw [CodePoint.ofNat_val] at hencode
    rw [hencode]
    exact hform.form hsurrogate

/-! ## Whole texts -/

theorem encode?_eq_some_iff {t : Text} {bytes : Bytes} :
    encode? t = some bytes ↔ Spells t bytes := by
  constructor
  · intro h
    induction t generalizing bytes with
    | nil =>
      cases h
      exact .nil
    | cons c t ih =>
      obtain ⟨hc, rest, ht, rfl⟩ := encode?_cons.mp h
      exact .cons (form_iff.mpr ⟨hc, rfl⟩) (ih ht)
  · intro h
    induction h with
    | nil => rfl
    | cons hc _ ih =>
      obtain ⟨hsurrogate, rfl⟩ := form_iff.mp hc
      exact encode?_cons.mpr ⟨hsurrogate, _, ih, rfl⟩

theorem decode_eq_ok_iff {bytes : Bytes} {t : Text} :
    decode bytes = .ok t ↔ Spells t bytes := by
  rw [← encode?_eq_some_iff]
  exact ⟨encode?_of_decode, decode_of_encode?⟩

theorem exists_decode_eq_error_iff {bytes : Bytes} :
    (∃ malformed, decode bytes = .error malformed) ↔ ¬ WellFormed bytes := by
  cases hdecode : decode bytes with
  | error malformed =>
    refine iff_of_true ⟨malformed, rfl⟩ ?_
    rintro ⟨t, ht⟩
    cases hdecode.symm.trans (decode_eq_ok_iff.mpr ht)
  | ok t =>
    refine iff_of_false ?_ (not_not_intro ⟨t, decode_eq_ok_iff.mp hdecode⟩)
    rintro ⟨malformed, h⟩
    cases h

end SchemaTransfer.Utf8
