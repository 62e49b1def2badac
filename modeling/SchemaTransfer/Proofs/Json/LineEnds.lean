import Mathlib.Data.List.Find
import SchemaTransfer.Proofs.Json.Fuel
import SchemaTransfer.Proofs.Json.String
import SchemaTransfer.Proofs.Text.Newline

/-!
# Line ends in JSON

A carriage return is a blank between the parts of a value and is refused inside of them, just like a
line feed. Whether line ends are unified before or after reading is therefore all one: the same value
is read, or the same fault is found, and only its place may be another one.
-/
namespace SchemaTransfer.Json

/-- The text that a refusal points to, with its line ends unified. -/
def Stop.unified : Stop → Stop
  | .malformed cause rest => .malformed cause rest.unifyNewlines
  | .tooManyDigits count rest => .tooManyDigits count rest.unifyNewlines

variable {α β : Type}

/-- What comes of reading where `f` unifies the line ends of what is left. -/
def afterwards (f : α → α) : Except Stop α → Except Stop α
  | .ok a => .ok (f a)
  | .error stop => .error stop.unified

/-- The text that is left behind a part, with its line ends unified. -/
def leftUnified (r : α × Text) : α × Text := (r.1, r.2.unifyNewlines)

/-- It is all one whether line ends are unified before reading or afterwards. -/
def Unifies (reader : Text → Except Stop (α × Text)) : Prop :=
  ∀ t, reader t.unifyNewlines = afterwards leftUnified (reader t)

@[simp] theorem afterwards_ok (f : α → α) (a : α) : afterwards f (.ok a) = .ok (f a) := rfl

@[simp] theorem afterwards_error (f : α → α) (stop : Stop) :
    afterwards f (.error stop) = .error stop.unified := rfl

theorem afterwards_map (f : α → β) (r : Except Stop (α × Text)) :
    (afterwards leftUnified r).map (fun (a, rest) => (f a, rest)) =
      afterwards leftUnified (r.map fun (a, rest) => (f a, rest)) := by
  cases r <;> rfl

theorem afterwards_bind {f : α → α} {g : β → β} {x : Except Stop α} {k k' : α → Except Stop β}
    (h : ∀ a, k' (f a) = afterwards g (k a)) :
    (afterwards f x >>= k') = afterwards g (x >>= k) := by
  cases x with
  | error stop => rfl
  | ok a => exact h a

/-! ## Blanks and signs -/

theorem skipBlank_unifyFrom (afterReturn : Bool) (t : Text) :
    skipBlank (Text.unifyFrom afterReturn t) = Text.unifyNewlines (skipBlank t) := by
  induction t generalizing afterReturn with
  | nil => rfl
  | cons c t ih =>
    by_cases hr : c = '\r'
    · subst hr
      rw [Text.unifyFrom, if_pos rfl]
      exact ih true
    · by_cases hn : c = '\n'
      · subst hn
        have hskip : skipBlank (CodePoint.ofChar '\n' :: t) = skipBlank t := rfl
        rw [Text.unifyFrom, if_neg (by decide), hskip]
        split
        · exact ih false
        · exact ih false
      · rw [Text.unifyFrom, if_neg hr, if_neg fun h => hn h.1]
        by_cases hb : isBlank c
        · rw [skipBlank, List.dropWhile_cons_of_pos hb, skipBlank, List.dropWhile_cons_of_pos hb]
          exact ih false
        · rw [skipBlank, List.dropWhile_cons_of_neg hb, skipBlank, List.dropWhile_cons_of_neg hb,
            Text.unifyNewlines_cons hr, Text.unifyNewlines]

theorem skipBlank_unifyNewlines (t : Text) :
    skipBlank t.unifyNewlines = Text.unifyNewlines (skipBlank t) :=
  skipBlank_unifyFrom false t

theorem expect_unifyNewlines {c : CodePoint} (hr : c ≠ '\r') (hn : c ≠ '\n') (cause : Cause)
    (t : Text) :
    expect c cause t.unifyNewlines = afterwards Text.unifyNewlines (expect c cause t) := by
  cases t with
  | nil => rfl
  | cons d t =>
    by_cases hd : d = '\r'
    · subst hd
      rw [Text.unifyNewlines_return, expect, expect, if_neg hn.symm, if_neg hr.symm,
        afterwards_error, Stop.unified, Text.unifyNewlines_return]
    · rw [Text.unifyNewlines_cons hd, expect, expect]
      split
      · rfl
      · rw [afterwards_error, Stop.unified, Text.unifyNewlines_cons hd]

/-! ## Escapes -/

/-- The value of a hexadecimal digit at the head, and the text after it. -/
def hexHead? : Text → Option (Nat × Text)
  | [] => none
  | c :: rest => c.hexValue?.map (·, rest)

theorem hexHead?_unifyNewlines (t : Text) :
    hexHead? t.unifyNewlines = (hexHead? t).map leftUnified := by
  cases t with
  | nil => rfl
  | cons c t =>
    by_cases hc : c = '\r'
    · subst hc
      rw [Text.unifyNewlines_return]
      rfl
    · rw [Text.unifyNewlines_cons hc, hexHead?, hexHead?]
      cases c.hexValue? <;> rfl

theorem fourHex?_eq (t : Text) :
    fourHex? t = (hexHead? t).bind fun a => (hexHead? a.2).bind fun b => (hexHead? b.2).bind fun c =>
      (hexHead? c.2).map fun d => (((a.1 * 16 + b.1) * 16 + c.1) * 16 + d.1, d.2) := by
  match t with
  | [] => rfl
  | [a] => cases ha : a.hexValue? <;> simp [fourHex?, hexHead?, ha]
  | [a, b] =>
    cases ha : a.hexValue? <;> cases hb : b.hexValue? <;> simp [fourHex?, hexHead?, ha, hb]
  | [a, b, c] =>
    cases ha : a.hexValue? <;> cases hb : b.hexValue? <;> cases hc : c.hexValue? <;>
      simp [fourHex?, hexHead?, ha, hb, hc]
  | a :: b :: c :: d :: rest =>
    cases ha : a.hexValue? <;> cases hb : b.hexValue? <;> cases hc : c.hexValue? <;>
      cases hd : d.hexValue? <;> simp [fourHex?, hexHead?, ha, hb, hc, hd]

theorem fourHex?_unifyNewlines (t : Text) :
    fourHex? t.unifyNewlines = (fourHex? t).map leftUnified := by
  rw [fourHex?_eq, fourHex?_eq, hexHead?_unifyNewlines]
  cases hexHead? t with
  | none => rfl
  | some a =>
    simp only [Option.map_some, Option.bind_some, leftUnified, hexHead?_unifyNewlines]
    cases hexHead? a.2 with
    | none => rfl
    | some b =>
      simp only [Option.map_some, Option.bind_some, leftUnified, hexHead?_unifyNewlines]
      cases hexHead? b.2 with
      | none => rfl
      | some c =>
        simp only [Option.map_some, Option.bind_some, leftUnified, hexHead?_unifyNewlines]
        cases hexHead? c.2 <;> rfl

theorem unifyNewlines_escape (tail : Text) :
    Text.unifyNewlines (CodePoint.ofChar '\\' :: CodePoint.ofChar 'u' :: tail) =
      CodePoint.ofChar '\\' :: CodePoint.ofChar 'u' :: tail.unifyNewlines := by
  rw [Text.unifyNewlines_cons (by decide), Text.unifyNewlines_cons (by decide)]

/-- An escape that stands there afterwards did so before. -/
theorem no_escape_unifyNewlines {rest : Text}
    (h : ∀ tail, rest ≠ CodePoint.ofChar '\\' :: CodePoint.ofChar 'u' :: tail) (tail : Text) :
    rest.unifyNewlines ≠ CodePoint.ofChar '\\' :: CodePoint.ofChar 'u' :: tail := by
  intro hunified
  obtain ⟨s, rfl, hs⟩ := Text.unifyNewlines_eq_cons (by decide) hunified
  obtain ⟨r, rfl, -⟩ := Text.unifyNewlines_eq_cons (by decide) hs
  exact h r rfl

theorem secondHalf_of_no_escape {rest : Text}
    (h : ∀ tail, rest ≠ CodePoint.ofChar '\\' :: CodePoint.ofChar 'u' :: tail) :
    secondHalf rest = .ok none := by
  match rest with
  | [] => rfl
  | [c] => rfl
  | c :: d :: tail =>
    refine if_neg fun hcond => h tail ?_
    rw [hcond.1, hcond.2.1]

theorem secondHalf_escape (tail : Text) :
    secondHalf (CodePoint.ofChar '\\' :: CodePoint.ofChar 'u' :: tail) =
      if 4 < tail.length then
        match fourHex? tail with
        | none => .error (.malformed .unicodeEscape (CodePoint.ofChar 'u' :: tail))
        | some (n, after) =>
          if (CodePoint.ofNat n).isLowSurrogate then .ok (some (.ofNat n, after)) else .ok none
      else .ok none := by
  have hmarked : (CodePoint.ofChar '\\' = '\\' ∧ CodePoint.ofChar 'u' = 'u' ∧ 4 < tail.length) ↔
      4 < tail.length := by
    simp
  exact if_congr hmarked rfl rfl

/-- As many code points stand behind four digits before as afterwards, if any do. -/
theorem four_lt_length_iff {tail after : Text} {n : Nat} (h : fourHex? tail = some (n, after)) :
    4 < tail.unifyNewlines.length ↔ 4 < tail.length := by
  have hunified : fourHex? tail.unifyNewlines = some (n, after.unifyNewlines) := by
    rw [fourHex?_unifyNewlines, h]
    rfl
  have hbefore := length_of_fourHex? h
  have hafter := length_of_fourHex? hunified
  have hnil := Text.unifyNewlines_eq_nil_iff (t := after)
  rw [← List.length_eq_zero_iff, ← List.length_eq_zero_iff] at hnil
  omega

/-- A second half that is malformed may be one that is not looked for, because the text got too
short. -/
theorem secondHalf_unifyNewlines (rest : Text) :
    secondHalf rest.unifyNewlines = afterwards (Option.map leftUnified) (secondHalf rest) ∨
    ∃ tail : Text, rest = CodePoint.ofChar '\\' :: CodePoint.ofChar 'u' :: tail ∧
      fourHex? tail = none ∧
      secondHalf rest = .error (.malformed .unicodeEscape (CodePoint.ofChar 'u' :: tail)) ∧
      secondHalf rest.unifyNewlines = .ok none := by
  by_cases hrest : ∃ tail : Text, rest = CodePoint.ofChar '\\' :: CodePoint.ofChar 'u' :: tail
  · obtain ⟨tail, rfl⟩ := hrest
    rw [unifyNewlines_escape, secondHalf_escape, secondHalf_escape, fourHex?_unifyNewlines]
    cases hhex : fourHex? tail with
    | none =>
      have hle := Text.length_unifyNewlines_le tail
      by_cases hlong : 4 < tail.length
      · rw [if_pos hlong]
        by_cases hlong' : 4 < tail.unifyNewlines.length
        · rw [if_pos hlong']
          refine Or.inl ?_
          rw [afterwards_error, Stop.unified, Text.unifyNewlines_cons (by decide)]
          rfl
        · rw [if_neg hlong']
          exact Or.inr ⟨tail, rfl, hhex, rfl, rfl⟩
      · rw [if_neg hlong, if_neg (by omega)]
        exact Or.inl rfl
    | some r =>
      refine Or.inl ?_
      simp only [four_lt_length_iff hhex, Option.map_some, leftUnified]
      split
      · split <;> rfl
      · rfl
  · have hnone : ∀ tail, rest ≠ CodePoint.ofChar '\\' :: CodePoint.ofChar 'u' :: tail :=
      fun tail h => hrest ⟨tail, h⟩
    rw [secondHalf_of_no_escape hnone, secondHalf_of_no_escape (no_escape_unifyNewlines hnone)]
    exact Or.inl rfl

theorem unicodeEscape_of_fourHex? {tail rest : Text} {n : Nat} (u : CodePoint)
    (h : fourHex? tail = some (n, rest)) (hne : rest ≠ []) :
    unicodeEscape u tail =
      if (CodePoint.ofNat n).isHighSurrogate then
        (secondHalf rest).map fun half =>
          half.elim (.ofNat n, rest) fun low => (CodePoint.ofPair (.ofNat n) low.1, low.2)
      else .ok (.ofNat n, rest) := by
  obtain ⟨c, rest, rfl⟩ := List.exists_cons_of_ne_nil hne
  rw [unicodeEscape, h]
  dsimp only
  by_cases hhigh : (CodePoint.ofNat n).isHighSurrogate
  · rw [if_pos hhigh, if_pos hhigh]
    cases secondHalf (c :: rest) with
    | error stop => rfl
    | ok half => cases half <;> rfl
  · rw [if_neg hhigh, if_neg hhigh]

theorem unicodeEscape_of_none {tail : Text} (u : CodePoint) (h : fourHex? tail = none) :
    unicodeEscape u tail = .error (.malformed .unicodeEscape (u :: tail)) := by
  rw [unicodeEscape, h]

theorem stringBody_backslash_error {opening tail : Text} {stop : Stop}
    (h : escape opening '\\' tail = .error stop) :
    stringBody opening ('\\' :: tail) = .error stop := by
  rw [stringBody, if_neg (by decide), if_pos rfl]
  split
  · next hs =>
    rw [h] at hs
    cases hs
    rfl
  · next hs =>
    rw [h] at hs
    cases hs

/-- A string is refused at an escape without its digits. -/
theorem stringBody_of_none {tail : Text} (opening : Text) (h : fourHex? tail = none) :
    stringBody opening (CodePoint.ofChar '\\' :: CodePoint.ofChar 'u' :: tail) =
      .error (.malformed .unicodeEscape (CodePoint.ofChar 'u' :: tail)) := by
  refine stringBody_backslash_error ?_
  rw [escape, if_pos rfl, unicodeEscape_of_none _ h]

/-- How an escape is read in a text whose line ends are unified: in the same way, or as a first half
alone, behind which the string is then refused as the second half was. -/
inductive EscapeUnified (before after : Except Stop (CodePoint × Text)) : Prop
  | same (h : after = afterwards leftUnified before)
  | later {stop : Stop} {c : CodePoint} {rest : Text} (hbefore : before = .error stop)
    (hafter : after = .ok (c, rest))
    (hrest : ∀ opening, stringBody opening rest = .error stop.unified)

/-- Whatever a first half makes of itself alone or with the second one. -/
theorem afterwards_elim (alone : CodePoint × Text) (join : CodePoint → CodePoint)
    (r : Except Stop (Option (CodePoint × Text))) :
    (afterwards (Option.map leftUnified) r).map
        (fun half => half.elim (leftUnified alone) fun low => (join low.1, low.2)) =
      afterwards leftUnified (r.map fun half => half.elim alone fun low => (join low.1, low.2)) := by
  cases r with
  | error stop => rfl
  | ok half => cases half <;> rfl

theorem unicodeEscape_unifyNewlines (tail : Text) :
    EscapeUnified (unicodeEscape 'u' tail) (unicodeEscape 'u' tail.unifyNewlines) := by
  have hunified := fourHex?_unifyNewlines tail
  have hcons : (Stop.malformed .unicodeEscape (CodePoint.ofChar 'u' :: tail)).unified =
      .malformed .unicodeEscape (CodePoint.ofChar 'u' :: tail.unifyNewlines) := by
    rw [Stop.unified, Text.unifyNewlines_cons (by decide)]
  cases hhex : fourHex? tail with
  | none =>
    rw [hhex] at hunified
    refine .same ?_
    rw [unicodeEscape_of_none _ hhex, unicodeEscape_of_none _ hunified, afterwards_error, hcons]
  | some r =>
    obtain ⟨n, rest⟩ := r
    rw [hhex] at hunified
    by_cases hne : rest = []
    · subst hne
      refine .same ?_
      have hnil : fourHex? tail.unifyNewlines = some (n, []) := hunified
      rw [unicodeEscape, unicodeEscape, hhex, hnil, afterwards_error, hcons]
    · have hne' : rest.unifyNewlines ≠ [] := fun h => hne (Text.unifyNewlines_eq_nil_iff.mp h)
      rw [unicodeEscape_of_fourHex? _ hhex hne, unicodeEscape_of_fourHex? _ hunified hne']
      by_cases hhigh : (CodePoint.ofNat n).isHighSurrogate
      · rw [if_pos hhigh, if_pos hhigh]
        rcases secondHalf_unifyNewlines rest with h | ⟨tail', rfl, hnone, hbefore, hafter⟩
        · refine .same ?_
          rw [h]
          exact afterwards_elim (.ofNat n, rest) (CodePoint.ofPair (.ofNat n)) (secondHalf rest)
        · rw [hbefore, hafter]
          refine .later rfl rfl fun opening => ?_
          have hnone' : fourHex? tail'.unifyNewlines = none := by
            rw [fourHex?_unifyNewlines, hnone]
            rfl
          rw [unifyNewlines_escape, stringBody_of_none opening hnone', Stop.unified,
            Text.unifyNewlines_cons (by decide)]
      · rw [if_neg hhigh, if_neg hhigh]
        exact .same rfl

theorem escape_unifyNewlines (opening tail : Text) :
    EscapeUnified (escape opening '\\' tail)
      (escape opening.unifyNewlines '\\' tail.unifyNewlines) := by
  have hcons : Text.unifyNewlines (CodePoint.ofChar '\\' :: tail) =
      CodePoint.ofChar '\\' :: tail.unifyNewlines := Text.unifyNewlines_cons (by decide) tail
  cases tail with
  | nil => exact .same rfl
  | cons c rest =>
    by_cases hc : c = '\r'
    · subst hc
      refine .same ?_
      rw [escape, if_neg (by decide)]
      show _ = Except.error (Stop.malformed .escape (Text.unifyNewlines (_ :: _)))
      rw [hcons, Text.unifyNewlines_return, escape, if_neg (by decide)]
      rfl
    · rw [Text.unifyNewlines_cons hc, escape, escape]
      by_cases hu : c = 'u'
      · subst hu
        rw [if_pos rfl, if_pos rfl]
        exact unicodeEscape_unifyNewlines rest
      · rw [if_neg hu, if_neg hu]
        refine .same ?_
        cases shortEscape? c with
        | some d => rfl
        | none =>
          rw [afterwards_error, Stop.unified, hcons, Text.unifyNewlines_cons hc]

/-! ## Strings -/

theorem stringBody_unifyNewlines (opening t : Text) :
    stringBody opening.unifyNewlines t.unifyNewlines =
      afterwards leftUnified (stringBody opening t) := by
  induction hn : t.length using Nat.strong_induction_on generalizing t with
  | _ n ih =>
    subst hn
    cases t with
    | nil =>
      rw [stringBody]
      show stringBody _ [] = _
      rw [stringBody]
      rfl
    | cons c t =>
      by_cases hc : c = '\r'
      · subst hc
        rw [Text.unifyNewlines_return, stringBody, stringBody, if_neg (by decide),
          if_neg (by decide), if_pos (by decide), if_neg (by decide), if_neg (by decide),
          if_pos (by decide), afterwards_error, Stop.unified, Text.unifyNewlines_return]
      · have hcons := Text.unifyNewlines_cons hc t
        rw [hcons]
        by_cases hbackslash : c = '\\'
        · subst hbackslash
          cases escape_unifyNewlines opening t with
          | same h =>
            cases hescape : escape opening '\\' t with
            | error stop =>
              rw [hescape] at h
              rw [stringBody_backslash_error hescape, stringBody_backslash_error h]
              rfl
            | ok r =>
              rw [hescape] at h
              have hlength := length_le_of_escape hescape
              have hrest := ih _ (Nat.lt_succ_of_le hlength) r.2 rfl
              rw [stringBody_backslash hescape, stringBody_backslash h, hrest]
              exact afterwards_map (r.1 :: ·) _
          | later hbefore hafter hrest =>
            rw [stringBody_backslash_error hbefore, stringBody_backslash hafter, hrest]
            rfl
        · have hrest := ih _ (Nat.lt_succ_self _) t rfl
          rw [stringBody, stringBody, if_neg hbackslash, if_neg hbackslash]
          split
          · rfl
          · split
            · rw [afterwards_error, Stop.unified, hcons]
            · rw [hrest]
              exact afterwards_map (c :: ·) _

/-! ## Numbers and words -/

theorem takeWhile_digit_unifyNewlines (t : Text) :
    t.unifyNewlines.takeWhile (·.isAsciiDigit) = t.takeWhile (·.isAsciiDigit) :=
  Text.takeWhile_unifyNewlines (by decide) (by decide) t

theorem dropWhile_digit_unifyNewlines (t : Text) :
    t.unifyNewlines.dropWhile (·.isAsciiDigit) = Text.unifyNewlines (t.dropWhile (·.isAsciiDigit)) :=
  Text.dropWhile_unifyNewlines (by decide) (by decide) t

theorem integerPart?_unifyNewlines (t : Text) :
    integerPart? t.unifyNewlines = (integerPart? t).map leftUnified := by
  cases t with
  | nil => rfl
  | cons c t =>
    by_cases hc : c = '\r'
    · subst hc
      rw [Text.unifyNewlines_return]
      rfl
    · have hdigits := takeWhile_digit_unifyNewlines (c :: t)
      have hrest := dropWhile_digit_unifyNewlines (c :: t)
      rw [Text.unifyNewlines_cons hc] at hdigits hrest ⊢
      rw [integerPart?, integerPart?, hdigits, hrest]
      split
      · rfl
      · split <;> rfl

theorem fractionPart?_unifyNewlines (t : Text) :
    fractionPart? t.unifyNewlines = (fractionPart? t).map leftUnified := by
  cases t with
  | nil => rfl
  | cons c t =>
    by_cases hc : c = '.'
    · rw [Text.unifyNewlines_cons (by rw [hc]; decide)]
      cases t with
      | nil => rfl
      | cons d t =>
        by_cases hd : d = '\r'
        · subst hd
          rw [Text.unifyNewlines_return, fractionPart?, fractionPart?, if_neg fun h => ?_,
            if_neg fun h => ?_]
          · rfl
          · exact absurd h.2 (by decide)
          · exact absurd h.2 (by decide)
        · have hdigits := takeWhile_digit_unifyNewlines (d :: t)
          have hrest := dropWhile_digit_unifyNewlines (d :: t)
          rw [Text.unifyNewlines_cons hd] at hdigits hrest ⊢
          rw [fractionPart?, fractionPart?, hdigits, hrest]
          split <;> rfl
    · have hunified : ∀ d ∈ (Text.unifyNewlines (c :: t)).head?, d ≠ CodePoint.ofChar '.' := by
        intro d hd hdot
        obtain ⟨s, hs⟩ := List.head?_eq_some_iff.mp hd
        obtain ⟨r, hr, -⟩ := Text.unifyNewlines_eq_cons (by rw [hdot]; decide) hs
        rw [List.cons.injEq] at hr
        exact hc (hr.1.trans hdot)
      rw [fractionPart?_eq_none hunified, fractionPart?_eq_none (by simpa using hc)]
      rfl

theorem exponentSign_unifyNewlines (t : Text) :
    exponentSign t.unifyNewlines = leftUnified (exponentSign t) := by
  cases t with
  | nil => rfl
  | cons c t =>
    by_cases hc : c = '\r'
    · subst hc
      rw [Text.unifyNewlines_return, exponentSign, exponentSign, if_neg (by decide),
        if_neg (by decide), if_neg (by decide), if_neg (by decide), leftUnified,
        Text.unifyNewlines_return]
    · rw [Text.unifyNewlines_cons hc, exponentSign, exponentSign]
      split
      · rfl
      · split
        · rfl
        · rw [leftUnified, Text.unifyNewlines_cons hc]

theorem exponentPart?_unifyNewlines (t : Text) :
    exponentPart? t.unifyNewlines = (exponentPart? t).map leftUnified := by
  cases t with
  | nil => rfl
  | cons c t =>
    by_cases hc : c = '\r'
    · subst hc
      rw [Text.unifyNewlines_return]
      rfl
    · rw [Text.unifyNewlines_cons hc, exponentPart?, exponentPart?]
      simp only [exponentSign_unifyNewlines, leftUnified, takeWhile_digit_unifyNewlines,
        dropWhile_digit_unifyNewlines]
      split
      · split <;> rfl
      · rfl

theorem rest_map_leftUnified (part : Option (α × Text)) (rest : Text) :
    ((part.map leftUnified).map Prod.snd).getD rest.unifyNewlines =
      Text.unifyNewlines ((part.map Prod.snd).getD rest) := by
  cases part <;> rfl

theorem read_map_leftUnified (part : Option (α × Text)) :
    (part.map leftUnified).map Prod.fst = part.map Prod.fst := by
  cases part <;> rfl

theorem magnitude_unifyNewlines (negative : Bool) (start t : Text) :
    magnitude negative start.unifyNewlines t.unifyNewlines =
      afterwards leftUnified (magnitude negative start t) := by
  rw [magnitude, magnitude, integerPart?_unifyNewlines]
  cases integerPart? t with
  | none => rfl
  | some r =>
    simp only [Option.map_some, leftUnified, fractionPart?_unifyNewlines, rest_map_leftUnified,
      exponentPart?_unifyNewlines, read_map_leftUnified, Option.isSome_map]
    split
    · rfl
    · split <;> rfl

theorem number_unifyNewlines : Unifies number := by
  intro t
  cases t with
  | nil => rfl
  | cons c t =>
    by_cases hc : c = '\r'
    · subst hc
      have hreturn := Text.unifyNewlines_return t
      rw [hreturn, number, number, if_neg (by decide), if_neg (by decide), ← hreturn]
      exact magnitude_unifyNewlines false _ _
    · have hcons := Text.unifyNewlines_cons hc t
      rw [hcons, number, number]
      split
      · rw [← hcons]
        exact magnitude_unifyNewlines true (c :: t) t
      · rw [← hcons]
        exact magnitude_unifyNewlines false (c :: t) (c :: t)

theorem words_no_line_end : ∀ w ∈ words, ∀ c ∈ w.1, c ≠ CodePoint.ofChar '\r' ∧ c ≠ '\n' := by
  decide

theorem isPrefixOf_word {w : Text × Json} (hw : w ∈ words) (t : Text) :
    w.1.isPrefixOf t.unifyNewlines = w.1.isPrefixOf t := by
  have hends := words_no_line_end w hw
  have hiff := Text.isPrefix_unifyNewlines_iff (t := t) (fun c hc => (hends c hc).1)
    fun c hc => (hends c hc).2
  rw [← List.isPrefixOf_iff_prefix, ← List.isPrefixOf_iff_prefix] at hiff
  exact Bool.eq_iff_iff.mpr hiff

theorem scalar_unifyNewlines : Unifies scalar := by
  intro t
  rw [scalar, scalar, List.find?_congr fun w hw => isPrefixOf_word hw t]
  cases hword : words.find? fun w => w.1.isPrefixOf t with
  | none => exact number_unifyNewlines t
  | some w =>
    have hstart : w.1.isPrefixOf t := by simpa using List.find?_some hword
    obtain ⟨tail, rfl⟩ := List.isPrefixOf_iff_prefix.mp hstart
    have hends := words_no_line_end w (List.mem_of_find?_eq_some hword)
    rw [Text.unifyNewlines_append fun c hc => (hends c hc).1]
    simp only [List.drop_left, afterwards_ok, leftUnified]

/-! ## Values -/

theorem continue_unifyNewlines {close : CodePoint} (hr : close ≠ '\r') (hn : close ≠ '\n')
    {next : Text → Except Stop (Json × Text)} (h : Unifies next) (done : Json) (rest : Text) :
    (match expect close .comma (skipBlank rest.unifyNewlines) with
      | .ok after => .ok (done, after)
      | .error _ => do
        let rest ← expect ',' .comma (skipBlank rest.unifyNewlines)
        next (skipBlank rest)) =
    afterwards leftUnified (match expect close .comma (skipBlank rest) with
      | .ok after => .ok (done, after)
      | .error _ => do
        let rest ← expect ',' .comma (skipBlank rest)
        next (skipBlank rest)) := by
  rw [skipBlank_unifyNewlines, expect_unifyNewlines hr hn,
    expect_unifyNewlines (by decide) (by decide)]
  cases expect close .comma (skipBlank rest) with
  | ok after => rfl
  | error stop =>
    refine afterwards_bind fun after => ?_
    rw [skipBlank_unifyNewlines]
    exact h (skipBlank after)

theorem value_unifyNewlines_step {fuel : Nat} (he : ∀ done, Unifies (elements fuel done))
    (hm : ∀ done, Unifies (members fuel done)) : Unifies (value (fuel + 1)) := by
  intro t
  cases t with
  | nil => rfl
  | cons c t =>
    by_cases hc : c = '\r'
    · subst hc
      have hreturn := Text.unifyNewlines_return t
      rw [hreturn, value, value, if_neg (by decide), if_neg (by decide), if_neg (by decide),
        if_neg (by decide), if_neg (by decide), if_neg (by decide), ← hreturn]
      exact scalar_unifyNewlines _
    · have hcons := Text.unifyNewlines_cons hc t
      rw [hcons, value, value, ← hcons]
      split
      · rw [stringBody_unifyNewlines]
        exact afterwards_map Json.string _
      · split
        · rw [skipBlank_unifyNewlines, expect_unifyNewlines (by decide) (by decide)]
          cases expect '}' .propertyName (skipBlank t) with
          | ok after => rfl
          | error stop => exact hm [] (skipBlank t)
        · split
          · rw [skipBlank_unifyNewlines, expect_unifyNewlines (by decide) (by decide)]
            cases expect ']' .value (skipBlank t) with
            | ok after => rfl
            | error stop => exact he [] (skipBlank t)
          · exact scalar_unifyNewlines (c :: t)

theorem elements_unifyNewlines_step {fuel : Nat} (hv : Unifies (value fuel))
    (he : ∀ done, Unifies (elements fuel done)) (done : List Json) :
    Unifies (elements (fuel + 1) done) := by
  intro t
  rw [elements, elements, hv t]
  refine afterwards_bind fun r => ?_
  exact continue_unifyNewlines (by decide) (by decide) (he (r.1 :: done)) _ r.2

theorem members_unifyNewlines_step {fuel : Nat} (hv : Unifies (value fuel))
    (hm : ∀ done, Unifies (members fuel done)) (done : List (Text × Json)) :
    Unifies (members (fuel + 1) done) := by
  intro t
  rw [members, members, expect_unifyNewlines (by decide) (by decide)]
  refine afterwards_bind fun body => ?_
  rw [stringBody_unifyNewlines]
  refine afterwards_bind fun key => ?_
  simp only [leftUnified]
  rw [skipBlank_unifyNewlines, expect_unifyNewlines (by decide) (by decide)]
  refine afterwards_bind fun behind => ?_
  rw [skipBlank_unifyNewlines, hv]
  refine afterwards_bind fun r => ?_
  exact continue_unifyNewlines (by decide) (by decide) (hm (Entries.put key.1 r.1 done)) _ r.2

theorem reader_unifyNewlines (fuel : Nat) :
    Unifies (value fuel) ∧ (∀ done, Unifies (elements fuel done)) ∧
      ∀ done, Unifies (members fuel done) := by
  induction fuel with
  | zero => exact ⟨fun _ => rfl, fun _ _ => rfl, fun _ _ => rfl⟩
  | succ fuel ih =>
    obtain ⟨hv, he, hm⟩ := ih
    exact ⟨value_unifyNewlines_step he hm, elements_unifyNewlines_step hv he,
      members_unifyNewlines_step hv hm⟩

/-! ## Documents -/

theorem head?_eq_byteOrderMark_iff (t : Text) :
    t.unifyNewlines.head? = some byteOrderMark ↔ t.head? = some byteOrderMark := by
  rw [List.head?_eq_some_iff, List.head?_eq_some_iff]
  constructor
  · rintro ⟨s, hs⟩
    obtain ⟨r, hr, -⟩ := Text.unifyNewlines_eq_cons (by decide) hs
    exact ⟨r, hr⟩
  · rintro ⟨r, rfl⟩
    exact ⟨Text.unifyNewlines r, Text.unifyNewlines_cons (by decide) r⟩

/-- Behind the value of a text there may be blanks only. -/
theorem ending_unifyNewlines (v : Json) (rest : Text) :
    (if (skipBlank rest.unifyNewlines).isEmpty then .ok v
      else .error (.malformed .extraData (skipBlank rest.unifyNewlines))) =
    (if (skipBlank rest).isEmpty then Except.ok v
      else .error (Stop.malformed .extraData (skipBlank rest))).mapError Stop.unified := by
  have hnil := Text.unifyNewlines_eq_nil_iff (t := skipBlank rest)
  rw [← List.isEmpty_iff, ← List.isEmpty_iff] at hnil
  rw [skipBlank_unifyNewlines]
  by_cases hend : (skipBlank rest).isEmpty
  · rw [if_pos hend, if_pos (hnil.mpr hend)]
    rfl
  · rw [if_neg hend, if_neg (mt hnil.mp hend)]
    rfl

/-- The same value is read, or the same fault is found in front of the same text but for its line
ends. -/
theorem document_unifyNewlines (t : Text) :
    document t.unifyNewlines = (document t).mapError Stop.unified := by
  rw [document, document]
  by_cases hmark : t.head? = some byteOrderMark
  · rw [if_pos hmark, if_pos ((head?_eq_byteOrderMark_iff t).mpr hmark)]
    rfl
  · rw [if_neg hmark, if_neg (mt (head?_eq_byteOrderMark_iff t).mp hmark), skipBlank_unifyNewlines]
    -- The fuel is that of the text, which may be shorter now.
    have hlength := Text.length_unifyNewlines_le t
    have hblank := length_skipBlank_le t.unifyNewlines
    rw [skipBlank_unifyNewlines] at hblank
    have hfuel : value (2 * t.unifyNewlines.length + 1) (Text.unifyNewlines (skipBlank t)) = _ :=
      value_of_enough (by omega)
    have hfuel' : value (2 * t.length + 1) (Text.unifyNewlines (skipBlank t)) = _ :=
      value_of_enough (by omega)
    rw [hfuel, ← hfuel', (reader_unifyNewlines _).1]
    cases value (2 * t.length + 1) (skipBlank t) with
    | error stop => rfl
    | ok r => exact ending_unifyNewlines r.1 r.2

end SchemaTransfer.Json
