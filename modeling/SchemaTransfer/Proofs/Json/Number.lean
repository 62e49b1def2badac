import SchemaTransfer.Json.Digits
import SchemaTransfer.Json.Reader
import SchemaTransfer.Json.Writer
import SchemaTransfer.Proofs.Double.Shortest
import SchemaTransfer.Proofs.Text.Numeral

/-!
# Numbers are read as they were written

A number ends where no digit, point or exponent follows. In front of such an end a whole number is
read back as itself, unless it has too many digits, and a double as itself, because the decimal that
was written for it reads back.
-/
namespace SchemaTransfer.Json

/-- The text goes on with something that cannot belong to a number. -/
def EndsNumber (t : Text) : Prop :=
  ∀ c ∈ t.head?, c.isAsciiDigit = false ∧ c ≠ '.' ∧ c ≠ 'e' ∧ c ≠ 'E'

/-- The text goes on with something other than a digit. -/
def EndsDigits (t : Text) : Prop := ∀ c ∈ t.head?, c.isAsciiDigit = false

def AllDigits (t : Text) : Prop := ∀ c ∈ t, c.isAsciiDigit = true

theorem EndsNumber.endsDigits {t : Text} (h : EndsNumber t) : EndsDigits t :=
  fun c hc => (h c hc).1

theorem endsDigits_cons {c : CodePoint} (t : Text) (h : c.isAsciiDigit = false) :
    EndsDigits (c :: t) := by
  intro d hd
  simp only [List.head?_cons, Option.mem_def, Option.some.injEq] at hd
  rwa [← hd]

theorem allDigits_ofNat (n : Nat) : AllDigits (Text.ofNat n) :=
  fun _ => Text.isAsciiDigit_of_mem_ofNat

theorem allDigits_zeros (k : Nat) : AllDigits (Text.zeros k) := by
  intro c hc
  rw [List.eq_of_mem_replicate hc]
  rfl

theorem AllDigits.append {s t : Text} (hs : AllDigits s) (ht : AllDigits t) : AllDigits (s ++ t) := by
  intro c hc
  rcases List.mem_append.mp hc with h | h
  · exact hs c h
  · exact ht c h

/-! ## Runs of digits -/

theorem takeWhile_digits {digits rest : Text} (hd : AllDigits digits) (hr : EndsDigits rest) :
    (digits ++ rest).takeWhile (·.isAsciiDigit) = digits := by
  rw [List.takeWhile_append_of_pos hd]
  cases rest with
  | nil => simp
  | cons c rest =>
    have hc : c.isAsciiDigit = false := hr c rfl
    rw [List.takeWhile_cons_of_neg (by simp [hc]), List.append_nil]

theorem dropWhile_digits {digits rest : Text} (hd : AllDigits digits) (hr : EndsDigits rest) :
    (digits ++ rest).dropWhile (·.isAsciiDigit) = rest := by
  rw [List.dropWhile_append_of_pos hd]
  cases rest with
  | nil => rfl
  | cons c rest =>
    have hc : c.isAsciiDigit = false := hr c rfl
    rw [List.dropWhile_cons_of_neg (by simp [hc])]

/-- The integer part of a number as it may be written: no zero stands in front of other digits. -/
structure IntegerDigits (digits : Text) : Prop where
  allDigits : AllDigits digits
  ne_nil : digits ≠ []
  leading : digits = ['0'] ∨ digits.head? ≠ some (CodePoint.ofChar '0')

theorem integerDigits_ofNat (n : Nat) : IntegerDigits (Text.ofNat n) where
  allDigits := allDigits_ofNat n
  ne_nil := Text.ofNat_ne_nil n
  leading := by
    rcases Nat.eq_zero_or_pos n with rfl | h
    · exact Or.inl (by rw [Text.ofNat, decimalDigits, if_pos (by decide)]; rfl)
    · exact Or.inr (Text.head_ofNat_ne_zero h)

theorem integerPart?_append {digits rest : Text} (h : IntegerDigits digits)
    (hr : EndsDigits rest) : integerPart? (digits ++ rest) = some (digits, rest) := by
  rcases h.leading with rfl | hlead
  · rfl
  · have hall := h.allDigits
    have hne := h.ne_nil
    cases digits with
    | nil => exact absurd rfl hne
    | cons c digits =>
      have hc : c ≠ CodePoint.ofChar '0' := fun he => hlead (by rw [he]; rfl)
      have htake := takeWhile_digits hall hr
      have hdrop := dropWhile_digits hall hr
      rw [List.cons_append] at htake hdrop ⊢
      rw [integerPart?, if_neg hc, if_pos (hall c (by simp)), htake, hdrop]

theorem fractionPart?_point {digits rest : Text} (hd : AllDigits digits) (hne : digits ≠ [])
    (hr : EndsDigits rest) :
    fractionPart? ('.' :: (digits ++ rest)) = some (digits, rest) := by
  cases digits with
  | nil => exact absurd rfl hne
  | cons d digits =>
    have htake := takeWhile_digits hd hr
    have hdrop := dropWhile_digits hd hr
    rw [List.cons_append] at htake hdrop ⊢
    rw [fractionPart?, if_pos ⟨rfl, hd d (by simp)⟩, htake, hdrop]

theorem fractionPart?_eq_none {t : Text} (h : ∀ c ∈ t.head?, c ≠ CodePoint.ofChar '.') :
    fractionPart? t = none := by
  match t with
  | [] => rfl
  | [_] => rfl
  | c :: d :: t =>
    rw [fractionPart?, if_neg fun hc => h c rfl hc.1]

theorem exponentPart?_eq_none {t : Text}
    (h : ∀ c ∈ t.head?, c ≠ CodePoint.ofChar 'e' ∧ c ≠ CodePoint.ofChar 'E') :
    exponentPart? t = none := by
  cases t with
  | nil => rfl
  | cons c t =>
    have hc := h c rfl
    rw [exponentPart?, if_neg fun he => he.elim hc.1 hc.2]

/-- The sign of an exponent as it is written. -/
def exponentMark (negative : Bool) : Text := if negative then "e-" else "e+"

theorem exponentPart?_mark (negative : Bool) {digits rest : Text} (hd : AllDigits digits)
    (hne : digits ≠ []) (hr : EndsDigits rest) :
    exponentPart? (exponentMark negative ++ (digits ++ rest)) =
      some (if negative then -(Text.digitsValue digits : Int) else Text.digitsValue digits, rest) := by
  have htake := takeWhile_digits hd hr
  have hdrop := dropWhile_digits hd hr
  have hempty : digits.isEmpty = false := by cases digits <;> simp_all
  have hsign : exponentPart? (exponentMark negative ++ (digits ++ rest)) =
      if ((digits ++ rest).takeWhile (·.isAsciiDigit)).isEmpty then none
      else some (if negative
        then -(Text.digitsValue ((digits ++ rest).takeWhile (·.isAsciiDigit)) : Int)
        else Text.digitsValue ((digits ++ rest).takeWhile (·.isAsciiDigit)),
        (digits ++ rest).dropWhile (·.isAsciiDigit)) := by
    cases negative <;> rfl
  rw [hsign, htake, hdrop, hempty]
  rfl

/-! ## Whole numbers -/

theorem magnitude_int (negative : Bool) (start : Text) {digits rest : Text}
    (h : IntegerDigits digits) (hlen : digits.length ≤ Text.maxDigits) (hr : EndsNumber rest) :
    magnitude negative start (digits ++ rest) =
      .ok (.int (if negative then -(Text.digitsValue digits : Int) else Text.digitsValue digits),
        rest) := by
  have hf := fractionPart?_eq_none fun c hc => (hr c hc).2.1
  have he := exponentPart?_eq_none fun c hc => (hr c hc).2.2
  simp only [magnitude, integerPart?_append h hr.endsDigits, hf, he, Option.map_none,
    Option.getD_none, Option.isSome_none, Bool.false_eq_true, or_self, if_false,
    if_neg (Nat.not_lt.mpr hlen)]

/-! ## Doubles -/

/-- A number with a fraction, an exponent or both. -/
theorem magnitude_double (negative : Bool) (start : Text) {t digits afterDigits decimals
    afterFraction rest : Text} {power : Int}
    (hd : integerPart? t = some (digits, afterDigits))
    (hf : fractionPart? afterDigits = some (decimals, afterFraction) ∨
      fractionPart? afterDigits = none ∧ decimals = [] ∧ afterFraction = afterDigits)
    (he : exponentPart? afterFraction = some (power, rest) ∨
      exponentPart? afterFraction = none ∧ power = 0 ∧ rest = afterFraction)
    (hany : fractionPart? afterDigits ≠ none ∨ exponentPart? afterFraction ≠ none) :
    magnitude negative start t =
      .ok (.double (Double.ofDecimal negative (Text.digitsValue (digits ++ decimals))
        (power - decimals.length)), rest) := by
  rw [magnitude, hd]
  rcases hf with hf | ⟨hf, rfl, rfl⟩ <;> rcases he with he | ⟨he, rfl, rfl⟩
  · simp [hf, he]
  · simp [hf, he]
  · simp [hf, he]
  · exact absurd hany (by simp [hf, he])

/-- A positional number ends with its decimals. -/
theorem magnitude_point (negative : Bool) (start : Text) {digits decimals rest : Text}
    (h : IntegerDigits digits) (hd : AllDigits decimals) (hne : decimals ≠ [])
    (hr : EndsNumber rest) :
    magnitude negative start (digits ++ CodePoint.ofChar '.' :: (decimals ++ rest)) =
      .ok (.double (Double.ofDecimal negative (Text.digitsValue (digits ++ decimals))
        (-(decimals.length : Int))), rest) := by
  have hf := fractionPart?_point hd hne hr.endsDigits
  have he := exponentPart?_eq_none fun c hc => (hr c hc).2.2
  rw [magnitude_double negative start (integerPart?_append h (endsDigits_cons _ rfl)) (.inl hf)
    (.inr ⟨he, rfl, rfl⟩) (.inl (by simp [hf])), Int.zero_sub]

theorem endsDigits_mark (negative : Bool) (t : Text) : EndsDigits (exponentMark negative ++ t) := by
  cases negative <;> exact endsDigits_cons _ rfl

theorem magnitude_exponent (negative down : Bool) (start : Text) {digits power rest : Text}
    (h : IntegerDigits digits) (hp : AllDigits power) (hne : power ≠ []) (hr : EndsNumber rest) :
    magnitude negative start (digits ++ (exponentMark down ++ (power ++ rest))) =
      .ok (.double (Double.ofDecimal negative (Text.digitsValue digits)
        (if down then -(Text.digitsValue power : Int) else Text.digitsValue power)), rest) := by
  have hf : fractionPart? (exponentMark down ++ (power ++ rest)) = none :=
    fractionPart?_eq_none (by cases down <;> (rintro c ⟨⟩; decide))
  have he := exponentPart?_mark down hp hne hr.endsDigits
  rw [magnitude_double negative start (integerPart?_append h (endsDigits_mark _ _))
    (.inr ⟨hf, rfl, rfl⟩) (.inl he) (.inr (by simp [he]))]
  simp

theorem magnitude_point_exponent (negative down : Bool) (start : Text)
    {digits decimals power rest : Text} (h : IntegerDigits digits) (hd : AllDigits decimals)
    (hdne : decimals ≠ []) (hp : AllDigits power) (hpne : power ≠ []) (hr : EndsNumber rest) :
    magnitude negative start
      (digits ++ CodePoint.ofChar '.' ::
        (decimals ++ (exponentMark down ++ (power ++ rest)))) =
      .ok (.double (Double.ofDecimal negative (Text.digitsValue (digits ++ decimals))
        ((if down then -(Text.digitsValue power : Int) else Text.digitsValue power) -
          decimals.length)), rest) := by
  have hf := fractionPart?_point hd hdne (endsDigits_mark down (power ++ rest))
  have he := exponentPart?_mark down hp hpne hr.endsDigits
  exact magnitude_double negative start (integerPart?_append h (endsDigits_cons _ rfl)) (.inl hf)
    (.inl he) (.inl (by simp [hf]))

/-! ## Decimals as they are laid out -/

/-- Digits behind a zero, a point and more zeros. -/
theorem magnitude_small (negative : Bool) (start : Text) {digits rest : Text} (k : Nat)
    (h : IntegerDigits digits) (hr : EndsNumber rest) :
    magnitude negative start ("0." ++ Text.zeros k ++ digits ++ rest) =
      .ok (.double (Double.ofDecimal negative (Text.digitsValue digits)
        (-((k + digits.length : Nat) : Int))), rest) := by
  have hzero : IntegerDigits ['0'] :=
    ⟨fun c hc => by rw [List.mem_singleton.mp hc]; rfl, by simp, Or.inl rfl⟩
  have hne : Text.zeros k ++ digits ≠ [] := by simp [h.ne_nil]
  have hvalue : Text.digitsValue ([CodePoint.ofChar '0'] ++ (Text.zeros k ++ digits)) =
      Text.digitsValue digits := by
    rw [← List.append_assoc]
    exact Text.digitsValue_zeros_append (k + 1) digits
  have hlen : (Text.zeros k ++ digits).length = k + digits.length := by
    rw [List.length_append, Text.zeros, List.length_replicate]
  have hm := magnitude_point negative start hzero ((allDigits_zeros k).append h.allDigits) hne hr
  rw [hvalue, hlen] at hm
  rw [← hm, List.append_assoc, List.append_assoc, List.append_assoc]
  rfl

/-- Some of several digits, from the first one on. -/
theorem IntegerDigits.take {digits : Text} {k : Nat} (h : IntegerDigits digits) (hpos : 0 < k)
    (hk : k < digits.length) : IntegerDigits (digits.take k) := by
  refine ⟨fun c hc => h.allDigits c (List.mem_of_mem_take hc), ?_, ?_⟩
  · simp only [ne_eq, List.take_eq_nil_iff, h.ne_nil, or_false]
    omega
  · rw [List.head?_take, if_neg (by omega)]
    refine Or.inr (h.leading.resolve_left fun he => ?_)
    have hone : digits.length = 1 := by rw [he]; rfl
    omega

theorem IntegerDigits.allDigits_drop {digits : Text} (k : Nat) (h : IntegerDigits digits) :
    AllDigits (digits.drop k) :=
  fun c hc => h.allDigits c (List.mem_of_mem_drop hc)

theorem drop_ne_nil {digits : Text} {k : Nat} (hk : k < digits.length) : digits.drop k ≠ [] := by
  simp only [ne_eq, List.drop_eq_nil_iff]
  omega

/-- Digits with the point between them. -/
theorem magnitude_inside (negative : Bool) (start : Text) {digits rest : Text} {k : Nat}
    (h : IntegerDigits digits) (hpos : 0 < k) (hk : k < digits.length) (hr : EndsNumber rest) :
    magnitude negative start (digits.take k ++ "." ++ digits.drop k ++ rest) =
      .ok (.double (Double.ofDecimal negative (Text.digitsValue digits)
        (-((digits.length - k : Nat) : Int))), rest) := by
  have hm := magnitude_point negative start (h.take hpos hk) (h.allDigits_drop k) (drop_ne_nil hk) hr
  rw [List.take_append_drop, List.length_drop] at hm
  rw [← hm, List.append_assoc, List.append_assoc]
  rfl

/-- Digits, zeros and a point with one more zero behind it. -/
theorem magnitude_whole (negative : Bool) (start : Text) {digits rest : Text} (k : Nat)
    (h : IntegerDigits digits) (hlead : digits = ['0'] → k = 0) (hr : EndsNumber rest) :
    magnitude negative start (digits ++ Text.zeros k ++ ".0" ++ rest) =
      .ok (.double (Double.ofDecimal negative (Text.digitsValue digits * 10 ^ k * 10) (-1)),
        rest) := by
  have hint : IntegerDigits (digits ++ Text.zeros k) := by
    refine ⟨h.allDigits.append (allDigits_zeros k), by simp [h.ne_nil], ?_⟩
    rcases h.leading with he | he
    · rw [hlead he, he]
      exact Or.inl rfl
    · rw [List.head?_append_of_ne_nil _ h.ne_nil]
      exact Or.inr he
  have hall : AllDigits (Text.zeros 1) := allDigits_zeros 1
  have hm := magnitude_point negative start hint hall (by simp [Text.zeros]) hr
  rw [Text.zeros, Text.zeros, Text.digitsValue_append_zeros, Text.digitsValue_append_zeros] at hm
  rw [Nat.pow_one] at hm
  rw [← Text.zeros] at hm
  rw [List.append_assoc (digits ++ Text.zeros k)]
  exact hm

theorem magnitude_positional (negative : Bool) (start : Text) {digits rest : Text} {e : Int}
    (h : IntegerDigits digits) (hz : digits = ['0'] → e = 0) (he : digits.length + e ≤ 16)
    (hr : EndsNumber rest) :
    magnitude negative start (NumberLayout.positional digits (digits.length + e) ++ rest) =
      .ok (.double (Double.ofDecimal negative (Text.digitsValue digits) e), rest) := by
  have hpos : 0 < digits.length := List.length_pos_iff.mpr h.ne_nil
  rw [NumberLayout.positional]
  split
  · next hle =>
    rw [magnitude_small negative start _ h hr]
    congr 4
    omega
  split
  · next hgt hlt =>
    rw [magnitude_inside negative start h (by omega) hlt hr]
    congr 4
    omega
  · next hgt hge =>
    have hk : ((digits.length : Int) + e).toNat - digits.length = e.toNat := by omega
    rw [hk, magnitude_whole negative start e.toNat h (fun hd => by rw [hz hd]; rfl) hr,
      Double.ofDecimal_eq_ofRank, Double.decimalRank_shift (by omega), ← Double.ofDecimal_eq_ofRank,
      Int.toNat_of_nonneg (by omega)]

theorem digitsValue_ofNatPadded (width n : Nat) :
    Text.digitsValue (Text.ofNatPadded width n) = n := by
  rw [Text.ofNatPadded, Text.zeros, Text.digitsValue_zeros_append, Text.digitsValue_ofNat]

/-- The digits of an exponent give back the exponent with its sign. -/
theorem exponent_of_mark (width : Nat) (e : Int) :
    (if decide (e < 0) then -(Text.digitsValue (Text.ofNatPadded width e.natAbs) : Int)
      else Text.digitsValue (Text.ofNatPadded width e.natAbs)) = e := by
  rw [digitsValue_ofNatPadded]
  by_cases h : e < 0
  · rw [if_pos (decide_eq_true h)]
    omega
  · rw [if_neg (by simp [h])]
    omega

theorem mark_eq (e : Int) :
    Text.ofString (if e < 0 then "e-" else "e+") = exponentMark (decide (e < 0)) := by
  by_cases h : e < 0 <;> simp [exponentMark, h]

theorem magnitude_scientific (negative : Bool) (start : Text) (l : NumberLayout)
    {digits rest : Text} (e : Int) (h : IntegerDigits digits) (hr : EndsNumber rest) :
    magnitude negative start (l.scientific digits (digits.length + e) ++ rest) =
      .ok (.double (Double.ofDecimal negative (Text.digitsValue digits) e), rest) := by
  rw [NumberLayout.scientific]
  generalize hexp : (digits.length : Int) + e - 1 = exponent
  have hp : AllDigits (Text.ofNatPadded l.exponentWidth exponent.natAbs) :=
    (allDigits_zeros _).append (allDigits_ofNat _)
  have hpne : Text.ofNatPadded l.exponentWidth exponent.natAbs ≠ [] := by
    simp [Text.ofNatPadded, Text.ofNat_ne_nil]
  have hpos : 0 < digits.length := List.length_pos_iff.mpr h.ne_nil
  rw [mark_eq]
  split
  · next hle =>
    have hm := magnitude_exponent negative (decide (exponent < 0)) start h hp hpne hr
    rw [exponent_of_mark, show exponent = e by omega] at hm
    rw [List.append_assoc, List.append_assoc, show exponent = e by omega]
    exact hm
  · next hgt =>
    have hm := magnitude_point_exponent negative (decide (exponent < 0)) start
      (h.take Nat.one_pos (by omega)) (h.allDigits_drop 1) (drop_ne_nil (by omega)) hp hpne hr
    rw [exponent_of_mark, List.take_append_drop, List.length_drop,
      show exponent - ((digits.length - 1 : Nat) : Int) = e by omega] at hm
    rw [← hm]
    simp only [List.append_assoc]
    rfl

/-- A decimal is read back from its layout with its digits and its exponent. -/
theorem magnitude_render (negative : Bool) (start : Text) {d : Decimal} {rest : Text}
    (hz : d.digits = 0 → d.exponent = 0) (hr : EndsNumber rest) :
    magnitude negative start (doubleLayout.render d ++ rest) =
      .ok (.double (Double.ofDecimal negative d.digits d.exponent), rest) := by
  have hint := integerDigits_ofNat d.digits
  have hzero : Text.ofNat d.digits = ['0'] → d.exponent = 0 := fun he => by
    have hvalue := Text.digitsValue_ofNat d.digits
    rw [he] at hvalue
    exact hz hvalue.symm
  rw [NumberLayout.render]
  split
  · next hpoint =>
    have hle : ((Text.ofNat d.digits).length : Int) + d.exponent ≤ 16 := hpoint.2
    rw [magnitude_positional negative start hint hzero hle hr, Text.digitsValue_ofNat]
  · rw [magnitude_scientific negative start doubleLayout d.exponent hint hr,
      Text.digitsValue_ofNat]

/-! ## Numbers among the other scalars -/

/-- What is read as a number without a sign begins with a digit. -/
theorem head_of_magnitude {negative : Bool} {start t : Text} {r : Json × Text}
    (h : magnitude negative start t = .ok r) :
    ∃ c rest, t = c :: rest ∧ c.isAsciiDigit = true := by
  cases t with
  | nil => cases h
  | cons c rest =>
    refine ⟨c, rest, rfl, ?_⟩
    by_contra hc
    have hzero : c ≠ CodePoint.ofChar '0' := fun he => hc (by rw [he]; rfl)
    rw [magnitude, integerPart?, if_neg hzero, if_neg hc] at h
    cases h

theorem ne_of_isAsciiDigit {c : CodePoint} {d : Char} (hc : c.isAsciiDigit = true)
    (hd : (CodePoint.ofChar d).isAsciiDigit = false) : c ≠ CodePoint.ofChar d := by
  rintro rfl
  rw [hc] at hd
  cases hd

theorem isPrefixOf_of_head_ne {a b : CodePoint} (s t : Text) (h : a ≠ b) :
    (a :: s).isPrefixOf (b :: t) = false := by
  rw [List.isPrefixOf_cons_cons, beq_false_of_ne h, Bool.false_and]

/-- No word begins with a digit. -/
theorem scalar_of_digit {c : CodePoint} (t : Text) (hc : c.isAsciiDigit = true) :
    scalar (c :: t) = number (c :: t) := by
  have hne : ∀ d : Char, (CodePoint.ofChar d).isAsciiDigit = false → CodePoint.ofChar d ≠ c :=
    fun d hd => (ne_of_isAsciiDigit hc hd).symm
  have hword : words.find? (fun w => w.1.isPrefixOf (c :: t)) = none := by
    rw [List.find?_eq_none]
    intro w hw
    simp only [words, List.mem_cons, List.not_mem_nil, or_false] at hw
    rw [Bool.not_eq_true]
    rcases hw with rfl | rfl | rfl | rfl | rfl | rfl
    · exact isPrefixOf_of_head_ne _ _ (hne 'n' rfl)
    · exact isPrefixOf_of_head_ne _ _ (hne 't' rfl)
    · exact isPrefixOf_of_head_ne _ _ (hne 'f' rfl)
    · exact isPrefixOf_of_head_ne _ _ (hne 'N' rfl)
    · exact isPrefixOf_of_head_ne _ _ (hne 'I' rfl)
    · exact isPrefixOf_of_head_ne _ _ (hne '-' rfl)
  rw [scalar, hword]

/-- The only word behind a sign is that for infinity. -/
theorem scalar_of_minus_digit {c : CodePoint} (t : Text) (hc : c.isAsciiDigit = true) :
    scalar ('-' :: c :: t) = number ('-' :: c :: t) := by
  have hword : words.find? (fun w => w.1.isPrefixOf (CodePoint.ofChar '-' :: c :: t)) = none := by
    rw [List.find?_eq_none]
    intro w hw
    simp only [words, List.mem_cons, List.not_mem_nil, or_false] at hw
    rw [Bool.not_eq_true]
    rcases hw with rfl | rfl | rfl | rfl | rfl | rfl
    · exact isPrefixOf_of_head_ne _ _ (by decide)
    · exact isPrefixOf_of_head_ne _ _ (by decide)
    · exact isPrefixOf_of_head_ne _ _ (by decide)
    · exact isPrefixOf_of_head_ne _ _ (by decide)
    · exact isPrefixOf_of_head_ne _ _ (by decide)
    · have hI : CodePoint.ofChar 'I' ≠ c := (ne_of_isAsciiDigit hc rfl).symm
      exact isPrefixOf_of_head_ne (Text.ofString "nfinity") t hI
  rw [scalar, hword]

theorem scalar_of_magnitude {t : Text} {r : Json × Text} (h : magnitude false t t = .ok r) :
    scalar t = .ok r := by
  obtain ⟨c, rest, rfl, hc⟩ := head_of_magnitude h
  rw [scalar_of_digit rest hc, number, if_neg (ne_of_isAsciiDigit hc rfl), h]

theorem scalar_of_negative_magnitude {t : Text} {r : Json × Text}
    (h : magnitude true ('-' :: t) t = .ok r) : scalar ('-' :: t) = .ok r := by
  obtain ⟨c, rest, rfl, hc⟩ := head_of_magnitude h
  rw [scalar_of_minus_digit rest hc, number, if_pos rfl, h]

theorem lt_ten_pow_iff {n k : Nat} (hk : 0 < k) :
    n < Nat.pow 10 k ↔ (decimalDigits n).length ≤ k := by
  refine ⟨length_decimalDigits_le hk, fun h => ?_⟩
  have hlt := Text.digitsValue_lt fun _ => Text.isAsciiDigit_of_mem_ofNat (n := n)
  rw [Text.digitsValue_ofNat, Text.ofNat, List.length_map] at hlt
  exact Nat.lt_of_lt_of_le hlt (Nat.pow_le_pow_right (by decide) h)

theorem fewDigits_iff {i : Int} :
    FewDigits i ↔ (decimalDigits i.natAbs).length ≤ Text.maxDigits :=
  lt_ten_pow_iff (by decide)

theorem scalar_ofInt {i : Int} {rest : Text} (hi : FewDigits i) (hr : EndsNumber rest) :
    scalar (Text.ofInt i ++ rest) = .ok (.int i, rest) := by
  have hlen : ∀ n : Nat, (Text.ofNat n).length = (decimalDigits n).length := fun n => by
    rw [Text.ofNat, List.length_map]
  cases i with
  | ofNat n =>
    apply scalar_of_magnitude
    rw [Text.ofInt, magnitude_int false _ (integerDigits_ofNat n)
      (by rw [hlen]; exact fewDigits_iff.mp hi) hr, Text.digitsValue_ofNat]
    rfl
  | negSucc n =>
    have hm := magnitude_int true (CodePoint.ofChar '-' :: (Text.ofNat (n + 1) ++ rest))
      (integerDigits_ofNat (n + 1)) (by rw [hlen]; exact fewDigits_iff.mp hi) hr
    rw [Text.digitsValue_ofNat] at hm
    exact scalar_of_negative_magnitude hm

theorem scalar_doubleText (d : Double) {rest : Text} (hr : EndsNumber rest) :
    scalar (doubleText d ++ rest) = .ok (.double d, rest) := by
  cases d with
  | nan => rfl
  | inf negative => cases negative <;> rfl
  | finite negative rank =>
    have hm := fun start => magnitude_render negative start
      (Double.exponent_eq_zero_of_digits_eq_zero rank.isLt) hr
    simp only [Double.ofDecimal_of_readBack rank.isLt (Double.readBack_shortest rank.isLt)] at hm
    cases negative with
    | false => exact scalar_of_magnitude (hm _)
    | true => exact scalar_of_negative_magnitude (hm _)

end SchemaTransfer.Json
