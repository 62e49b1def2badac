import SchemaTransfer.Proofs.Json.Outcome

/-!
# Numerals that are too long

A text that is not JSON is refused with a place. The one other thing that reading may end in is a
whole number of too many digits, and it ends so only if the digits are there.
-/
namespace SchemaTransfer.Json

/-- Somewhere in the text `count` digits stand in a row, and that is too many. -/
def LongNumeral (count : Nat) (t : Text) : Prop :=
  Text.maxDigits < count ∧ ∃ digits, AllDigits digits ∧ digits.length = count ∧ digits <:+: t

variable {count : Nat} {s t : Text}

theorem LongNumeral.of_suffix (h : LongNumeral count s) (hs : s <:+ t) : LongNumeral count t := by
  obtain ⟨hlong, digits, hall, hcount, hdigits⟩ := h
  exact ⟨hlong, digits, hall, hcount, hdigits.trans hs.isInfix⟩

/-! ## What stops for another reason -/

theorem expect_eq_error {c : CodePoint} {cause : Cause} {stop : Stop}
    (h : expect c cause t = .error stop) : stop = .malformed cause t := by
  unfold expect at h
  split at h
  · cases h
    rfl
  · split at h
    · cases h
    · cases h
      rfl

theorem secondHalf_eq_error {rest : Text} {stop : Stop} (h : secondHalf rest = .error stop) :
    ∃ cause behind, stop = .malformed cause behind := by
  unfold secondHalf at h
  split at h
  · split at h
    · split at h
      · cases h
        exact ⟨_, _, rfl⟩
      · split at h <;> cases h
    · cases h
  · cases h

theorem escape_eq_error {opening tail : Text} {b : CodePoint} {stop : Stop}
    (h : escape opening b tail = .error stop) : ∃ cause behind, stop = .malformed cause behind := by
  unfold escape at h
  split at h
  · cases h
    exact ⟨_, _, rfl⟩
  split at h
  · unfold unicodeEscape at h
    split at h
    · cases h
      exact ⟨_, _, rfl⟩
    · cases h
      exact ⟨_, _, rfl⟩
    split at h
    · split at h
      · next hhalf =>
        cases h
        exact secondHalf_eq_error hhalf
      · cases h
      · cases h
    · cases h
  · split at h
    · cases h
    · cases h
      exact ⟨_, _, rfl⟩

theorem stringBody_eq_error {opening : Text} {stop : Stop} (h : stringBody opening t = .error stop) :
    ∃ cause behind, stop = .malformed cause behind := by
  induction hn : t.length using Nat.strong_induction_on generalizing t with
  | _ n ih =>
    subst hn
    unfold stringBody at h
    split at h
    · cases h
      exact ⟨_, _, rfl⟩
    next c rest =>
    split at h
    · cases h
    split at h
    · split at h
      · next hescape =>
        cases h
        exact escape_eq_error hescape
      · next hescape =>
        have hlength := length_le_of_escape hescape
        exact ih _ (Nat.lt_succ_of_le hlength) (map_eq_error.mp h) rfl
    split at h
    · cases h
      exact ⟨_, _, rfl⟩
    · exact ih _ (Nat.lt_succ_self _) (map_eq_error.mp h) rfl

/-! ## Numbers -/

/-- The digits of the integer part stand at the head. -/
theorem isPrefix_of_integerPart? {digits rest : Text} (h : integerPart? t = some (digits, rest)) :
    digits <+: t := by
  unfold integerPart? at h
  split at h
  · cases h
  split at h
  · cases h
    exact ⟨_, rfl⟩
  split at h
  · cases h
    exact List.takeWhile_prefix _
  · cases h

theorem longNumeral_of_magnitude {negative : Bool} {start left : Text}
    (h : magnitude negative start t = .error (.tooManyDigits count left)) : LongNumeral count t := by
  unfold magnitude at h
  split at h
  · cases h
  next digits rest hdigits =>
  dsimp only at h
  split at h
  · cases h
  split at h
  · next hlong =>
    cases h
    exact ⟨hlong, digits, (integerPart?_eq_some hdigits).2.1, rfl,
      (isPrefix_of_integerPart? hdigits).isInfix⟩
  · cases h

theorem longNumeral_of_scalar {left : Text} (h : scalar t = .error (.tooManyDigits count left)) :
    LongNumeral count t := by
  unfold scalar at h
  split at h
  · cases h
  unfold number at h
  split at h
  · cases h
  split at h
  · exact (longNumeral_of_magnitude h).of_suffix (List.suffix_cons _ _)
  · exact longNumeral_of_magnitude h

/-! ## Values -/

/-- The reader gives up on a number only where too many digits are. -/
def StopsAtLong (reader : Text → Except Stop (Json × Text)) : Prop :=
  ∀ t count left, t.SurrogateFree → reader t = .error (.tooManyDigits count left) →
    LongNumeral count t

/-- Behind an element or a member there is the closing bracket, or what `next` reads. -/
theorem longNumeral_of_continues {close : CodePoint} {rest : Text} {done : Json}
    {next : Text → Except Stop (Json × Text)} (hnext : StopsAtLong next) {left : Text}
    (hr : rest.SurrogateFree)
    (h : (match expect close .comma (skipBlank rest) with
      | .ok after => .ok (done, after)
      | .error _ => do
        let rest ← expect ',' .comma (skipBlank rest)
        next (skipBlank rest)) = Except.error (Stop.tooManyDigits count left)) :
    LongNumeral count rest := by
  split at h
  · cases h
  rcases bind_eq_error.mp h with h | ⟨after, hcomma, h⟩
  · cases expect_eq_error h
  · have hafter : skipBlank after <:+ rest :=
      (skipBlank_suffix after).trans ((List.suffix_cons _ after).trans
        (expect_eq_ok.mp hcomma ▸ skipBlank_suffix rest))
    exact (hnext _ _ _ (hr.suffix hafter) h).of_suffix hafter

theorem value_stops {fuel : Nat} (hm : StopsAtLong (members fuel []))
    (he : StopsAtLong (elements fuel [])) : StopsAtLong (value (fuel + 1)) := by
  intro t count left ht h
  have hbehind : ∀ {c : CodePoint} {rest : Text}, skipBlank rest <:+ c :: rest :=
    (skipBlank_suffix _).trans (List.suffix_cons _ _)
  cases t with
  | nil => cases h
  | cons c rest =>
    rw [value] at h
    split at h
    · obtain ⟨_, _, hstop⟩ := stringBody_eq_error (map_eq_error.mp h)
      cases hstop
    split at h
    · split at h
      · cases h
      · exact (hm _ _ _ (ht.suffix hbehind) h).of_suffix hbehind
    split at h
    · split at h
      · cases h
      · exact (he _ _ _ (ht.suffix hbehind) h).of_suffix hbehind
    · exact longNumeral_of_scalar h

theorem elements_stops {fuel : Nat} (hv : StopsAtLong (value fuel))
    (he : ∀ done, StopsAtLong (elements fuel done)) (done : List Json) :
    StopsAtLong (elements (fuel + 1) done) := by
  intro t count left ht h
  rw [elements] at h
  rcases bind_eq_error.mp h with h | ⟨⟨v, rest⟩, hread, h⟩
  · exact hv t count left ht h
  · have hrest := suffix_of_value hread
    exact (longNumeral_of_continues (he _) (ht.suffix hrest) h).of_suffix hrest

theorem members_stops {fuel : Nat} (hv : StopsAtLong (value fuel))
    (hm : ∀ done, StopsAtLong (members fuel done)) (done : List (Text × Json)) :
    StopsAtLong (members (fuel + 1) done) := by
  intro t count left ht h
  rw [members] at h
  rcases bind_eq_error.mp h with h | ⟨body, hquote, h⟩
  · cases expect_eq_error h
  rcases bind_eq_error.mp h with h | ⟨⟨key, colon⟩, hkey, h⟩
  · obtain ⟨_, _, hstop⟩ := stringBody_eq_error h
    cases hstop
  rcases bind_eq_error.mp h with h | ⟨behind, hcolon, h⟩
  · cases expect_eq_error h
  rw [expect_eq_ok.mp hquote] at ht hkey ⊢
  have hbehind := suffix_of_member hkey (expect_eq_ok.mp hcolon)
  rcases bind_eq_error.mp h with h | ⟨⟨v, rest⟩, hread, h⟩
  · exact (hv _ _ _ (ht.suffix hbehind) h).of_suffix hbehind
  · have hrest := (suffix_of_value hread).trans hbehind
    exact (longNumeral_of_continues (hm _) (ht.suffix hrest) h).of_suffix hrest

theorem stops (fuel : Nat) : StopsAtLong (value fuel) ∧
    (∀ done, StopsAtLong (elements fuel done)) ∧ ∀ done, StopsAtLong (members fuel done) := by
  induction fuel with
  | zero =>
    refine ⟨fun t count left _ h => ?_, fun done t count left _ h => ?_,
      fun done t count left _ h => ?_⟩
    all_goals cases h
  | succ fuel ih =>
    obtain ⟨hv, he, hm⟩ := ih
    exact ⟨value_stops (hm []) (he []), elements_stops hv he, members_stops hv hm⟩

/-- Text without surrogates is read, or is refused with a place, or has too many digits in a row. -/
theorem longNumeral_of_read (ht : t.SurrogateFree)
    (h : read t = .error (.tooManyDigits count)) : LongNumeral count t := by
  obtain ⟨stop, hstop, hin⟩ := mapError_eq_error.mp h
  cases stop with
  | malformed => cases hin
  | tooManyDigits =>
    cases hin
    unfold document at hstop
    split at hstop
    · cases hstop
    rcases bind_eq_error.mp hstop with h | ⟨⟨v, rest⟩, -, h⟩
    · exact ((stops _).1 _ _ _ (ht.suffix (skipBlank_suffix t)) h).of_suffix (skipBlank_suffix t)
    · dsimp only at h
      split at h <;> cases h

end SchemaTransfer.Json
