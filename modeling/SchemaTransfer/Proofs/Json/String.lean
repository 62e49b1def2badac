import SchemaTransfer.Json.Reader
import SchemaTransfer.Json.Writer
import SchemaTransfer.Proofs.Text.Surrogate

/-!
# Strings are read as they were written

The escape of a code point is read as that code point. The one exception is a high surrogate in
front of a low one: their two escapes are those of a pair, and what comes back is the code point
that the pair stands for.
-/
namespace SchemaTransfer.Json

/-! ## Escapes of code units -/

theorem hexValue?_hexDigit {n : Nat} (h : n < 16) : (CodePoint.hexDigit n).hexValue? = some n := by
  have hall : ∀ n < 16, (CodePoint.hexDigit n).hexValue? = some n := by decide
  exact hall n h

theorem hex_four (n : Nat) :
    Text.hex 4 n = [CodePoint.hexDigit (n / 16 / 16 / 16 % 16), CodePoint.hexDigit (n / 16 / 16 % 16),
      CodePoint.hexDigit (n / 16 % 16), CodePoint.hexDigit (n % 16)] := rfl

theorem fourHex?_hex {n : Nat} (h : n < 0x10000) (rest : Text) :
    fourHex? (Text.hex 4 n ++ rest) = some (n, rest) := by
  have hlt : ∀ m, m % 16 < 16 := fun m => Nat.mod_lt m (by decide)
  rw [hex_four]
  simp only [List.cons_append, List.nil_append, fourHex?, hexValue?_hexDigit (hlt _),
    Option.some.injEq, Prod.mk.injEq, and_true]
  omega

theorem length_hex_four (n : Nat) : (Text.hex 4 n).length = 4 := rfl

theorem unitEscape_eq (n : Nat) :
    unitEscape n = CodePoint.ofChar '\\' :: CodePoint.ofChar 'u' :: Text.hex 4 n := rfl

/-- Text with something in it in front of whatever follows. -/
theorem four_lt_length {n : Nat} {rest : Text} (h : rest ≠ []) :
    4 < (Text.hex 4 n ++ rest).length := by
  have := List.length_pos_iff.mpr h
  rw [List.length_append, length_hex_four]
  omega

theorem secondHalf_unitEscape {n : Nat} (h : n < 0x10000) {rest : Text} (hr : rest ≠ []) :
    secondHalf (unitEscape n ++ rest) =
      if (CodePoint.ofNat n).isLowSurrogate then .ok (some (.ofNat n, rest)) else .ok none := by
  rw [unitEscape_eq, List.cons_append, List.cons_append, secondHalf,
    if_pos ⟨rfl, rfl, four_lt_length hr⟩, fourHex?_hex h]

theorem secondHalf_eq_none {c : CodePoint} (t : Text) (h : c ≠ '\\') :
    secondHalf (c :: t) = .ok none := by
  cases t with
  | nil => rfl
  | cons d t => rw [secondHalf, if_neg fun hc => h hc.1]

theorem secondHalf_eq_none_of_letter {d : CodePoint} (t : Text) (h : d ≠ 'u') :
    secondHalf ('\\' :: d :: t) = .ok none := by
  rw [secondHalf, if_neg fun hc => h hc.2.1]

/-! ## The kinds of escapes -/

/-- How a code point is written: as it is, as a letter behind a backslash, or as one or two code
units. -/
inductive Spelling (c : CodePoint) : Text → Prop
  | plain (hq : c ≠ '"') (hb : c ≠ '\\') (hc : 0x20 ≤ c.val) : Spelling c [c]
  | letter (d : CodePoint) (hu : d ≠ 'u') (hd : shortEscape? d = some c) : Spelling c ['\\', d]
  | unit (hc : c.val < 0x10000) : Spelling c (unitEscape c.val)
  | pair (hc : 0x10000 ≤ c.val) : Spelling c
      (unitEscape (0xD800 + (c.val - 0x10000) / 0x400) ++
        unitEscape (0xDC00 + (c.val - 0x10000) % 0x400))

theorem spelling_escaped (c : CodePoint) : Spelling c (escaped c) := by
  rw [escaped]
  split
  · next h => rcases h with rfl | rfl <;> exact .letter _ (by decide) rfl
  next hc =>
  obtain ⟨hq, hb⟩ := not_or.mp hc
  split
  · next h => subst h; exact .letter 'n' (by decide) rfl
  split
  · next h => subst h; exact .letter 'r' (by decide) rfl
  split
  · next h => subst h; exact .letter 't' (by decide) rfl
  split
  · next h =>
    obtain rfl : c = ⟨8, by decide⟩ := CodePoint.ext h
    exact .letter 'b' (by decide) rfl
  split
  · next h =>
    obtain rfl : c = ⟨12, by decide⟩ := CodePoint.ext h
    exact .letter 'f' (by decide) rfl
  split
  · next h => exact .plain hq hb h.1
  split
  · next h => exact .unit h
  · next h => exact .pair (by omega)

/-! ## One code point of a string -/

theorem unicodeEscape_hex {n : Nat} (h : n < 0x10000) (u : CodePoint) {tail : Text}
    (ht : tail ≠ []) (hs : (CodePoint.ofNat n).isHighSurrogate = true → secondHalf tail = .ok none) :
    unicodeEscape u (Text.hex 4 n ++ tail) = .ok (.ofNat n, tail) := by
  rw [unicodeEscape, fourHex?_hex h]
  cases tail with
  | nil => exact absurd rfl ht
  | cons c tail =>
    dsimp only
    split
    · next hn => rw [hs hn]
    · rfl

theorem unicodeEscape_pair {m n : Nat} (hm : m < 0x10000) (hn : n < 0x10000) (u : CodePoint)
    {tail : Text} (ht : tail ≠ []) (hp : (CodePoint.ofNat m).FormPair (.ofNat n)) :
    unicodeEscape u (Text.hex 4 m ++ (unitEscape n ++ tail)) =
      .ok (CodePoint.ofPair (.ofNat m) (.ofNat n), tail) := by
  have hs := secondHalf_unitEscape hn ht
  rw [if_pos hp.2] at hs
  rw [unicodeEscape, fourHex?_hex hm]
  rw [unitEscape_eq, List.cons_append] at hs ⊢
  dsimp only
  rw [if_pos hp.1, hs]

theorem stringBody_backslash {opening tail after : Text} {c : CodePoint}
    (h : escape opening '\\' tail = .ok (c, after)) :
    stringBody opening ('\\' :: tail) =
      (stringBody opening after).map fun (s, r) => (c :: s, r) := by
  rw [stringBody, if_neg (by decide), if_pos rfl]
  split
  · next hs =>
    rw [h] at hs
    cases hs
  · next d after' hs =>
    rw [h] at hs
    cases hs
    rfl

theorem stringBody_unitEscape {opening tail after : Text} {n : Nat} {c : CodePoint}
    (h : unicodeEscape 'u' (Text.hex 4 n ++ tail) = .ok (c, after)) :
    stringBody opening (unitEscape n ++ tail) =
      (stringBody opening after).map fun (s, r) => (c :: s, r) := by
  rw [unitEscape_eq, List.cons_append, List.cons_append]
  exact stringBody_backslash (by rw [escape, if_pos rfl, h])

/-- The halves of the pair for a code point above FFFF. -/
theorem formPair_halves {c : CodePoint} (h : 0x10000 ≤ c.val) :
    (CodePoint.ofNat (0xD800 + (c.val - 0x10000) / 0x400)).FormPair
        (.ofNat (0xDC00 + (c.val - 0x10000) % 0x400)) ∧
      CodePoint.ofPair (.ofNat (0xD800 + (c.val - 0x10000) / 0x400))
        (.ofNat (0xDC00 + (c.val - 0x10000) % 0x400)) = c := by
  have hlt := c.lt
  have hhigh := CodePoint.val_ofNat (show 0xD800 + (c.val - 0x10000) / 0x400 < 0x110000 by omega)
  have hlow := CodePoint.val_ofNat (show 0xDC00 + (c.val - 0x10000) % 0x400 < 0x110000 by omega)
  refine ⟨⟨?_, ?_⟩, ?_⟩
  · rw [CodePoint.isHighSurrogate_iff, hhigh]
    omega
  · rw [CodePoint.isLowSurrogate_iff, hlow]
    omega
  · rw [CodePoint.ofPair, hhigh, hlow]
    apply CodePoint.ext
    rw [CodePoint.val_ofNat (by omega)]
    omega

/-- A code point is read from its spelling, unless it is a high surrogate in front of a low one. -/
theorem stringBody_of_spelling (opening : Text) {c : CodePoint} {w tail : Text} (hw : Spelling c w)
    (ht : tail ≠ []) (hs : c.isHighSurrogate = true → secondHalf tail = .ok none) :
    stringBody opening (w ++ tail) = (stringBody opening tail).map fun (s, r) => (c :: s, r) := by
  cases hw with
  | plain hq hb hc =>
    rw [List.singleton_append, stringBody, if_neg hq, if_neg hb, if_neg (by omega)]
  | letter d hu hd =>
    have he : escape opening '\\' (d :: tail) = .ok (c, tail) := by rw [escape, if_neg hu, hd]
    exact stringBody_backslash he
  | unit hc =>
    rw [← CodePoint.ofNat_val c] at hs
    rw [stringBody_unitEscape (unicodeEscape_hex hc 'u' ht hs), CodePoint.ofNat_val]
  | pair hc =>
    obtain ⟨hp, hc'⟩ := formPair_halves hc
    have hlt := c.lt
    rw [List.append_assoc, stringBody_unitEscape
      (unicodeEscape_pair (by omega) (by omega) 'u' ht hp), hc']

theorem ne_ofChar_of_val_ne {c : CodePoint} {d : Char} (h : c.val ≠ (CodePoint.ofChar d).val) :
    c ≠ CodePoint.ofChar d :=
  fun he => h (by rw [he])

theorem escaped_eq_unitEscape {c : CodePoint} (h : 0x7F ≤ c.val) (hc : c.val < 0x10000) :
    escaped c = unitEscape c.val := by
  have hne : ∀ d : Char, (CodePoint.ofChar d).val < 0x7F → c ≠ CodePoint.ofChar d :=
    fun d hd => ne_ofChar_of_val_ne (by omega)
  rw [escaped, if_neg fun ho => ho.elim (hne '"' (by decide)) (hne '\\' (by decide)),
    if_neg (hne '\n' (by decide)), if_neg (hne '\r' (by decide)), if_neg (hne '\t' (by decide)),
    if_neg (by omega), if_neg (by omega), if_neg (by omega), if_pos hc]

theorem stringBody_of_pair (opening : Text) {c d : CodePoint} {tail : Text} (ht : tail ≠ [])
    (hp : c.FormPair d) :
    stringBody opening (escaped c ++ (escaped d ++ tail)) =
      (stringBody opening tail).map fun (s, r) => (CodePoint.ofPair c d :: s, r) := by
  have hc := CodePoint.isHighSurrogate_iff.mp hp.1
  have hd := CodePoint.isLowSurrogate_iff.mp hp.2
  rw [← CodePoint.ofNat_val c, ← CodePoint.ofNat_val d] at hp
  rw [escaped_eq_unitEscape (by omega) (by omega), escaped_eq_unitEscape (by omega) (by omega),
    stringBody_unitEscape (unicodeEscape_pair (by omega) (by omega) 'u' ht hp),
    CodePoint.ofNat_val, CodePoint.ofNat_val]

/-- Behind a high surrogate nothing but the escape of a low one is taken for a second half. -/
theorem secondHalf_escaped {c : CodePoint} {tail : Text} (ht : tail ≠ [])
    (hc : c.isLowSurrogate = false) : secondHalf (escaped c ++ tail) = .ok none := by
  have hw := spelling_escaped c
  generalize escaped c = w at hw
  cases hw with
  | plain hq hb _ => exact secondHalf_eq_none tail hb
  | letter d hu hd => exact secondHalf_eq_none_of_letter tail hu
  | unit h =>
    rw [secondHalf_unitEscape h ht, CodePoint.ofNat_val, hc]
    rfl
  | pair h =>
    have hlt := c.lt
    rw [List.append_assoc, secondHalf_unitEscape (by omega) (by simp [unitEscape_eq]), if_neg]
    rw [CodePoint.isLowSurrogate_iff, CodePoint.val_ofNat (by omega)]
    omega

/-- What is read of a string up to its closing quote is the text that was written, with its pairs
joined. -/
theorem stringBody_escaped (opening t rest : Text) :
    stringBody opening (t.flatMap escaped ++ CodePoint.ofChar '"' :: rest) =
      .ok (t.joined, rest) := by
  have hquote : ∀ t : Text, t.flatMap escaped ++ CodePoint.ofChar '"' :: rest ≠ [] := by simp
  fun_induction Text.joined t with
  | case1 => rw [List.flatMap_nil, List.nil_append, stringBody, if_pos rfl]
  | case2 c =>
    have hs : secondHalf (CodePoint.ofChar '"' :: rest) = .ok none :=
      secondHalf_eq_none rest (by decide)
    rw [List.flatMap_singleton, stringBody_of_spelling opening (spelling_escaped c) (by simp)
      fun _ => hs, stringBody, if_pos rfl]
    rfl
  | case3 c d t hp ih =>
    rw [List.flatMap_cons, List.flatMap_cons, List.append_assoc, List.append_assoc,
      stringBody_of_pair opening (hquote t) hp, ih]
    rfl
  | case4 c d t hp ih =>
    have hs : c.isHighSurrogate = true →
        secondHalf ((d :: t).flatMap escaped ++ CodePoint.ofChar '"' :: rest) = .ok none := by
      intro hc
      rw [List.flatMap_cons, List.append_assoc]
      exact secondHalf_escaped (hquote t) (Bool.eq_false_iff.mpr fun hd => hp ⟨hc, hd⟩)
    rw [List.flatMap_cons, List.append_assoc,
      stringBody_of_spelling opening (spelling_escaped c) (hquote (d :: t)) hs, ih]
    rfl

end SchemaTransfer.Json
