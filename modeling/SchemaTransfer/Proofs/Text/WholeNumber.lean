import SchemaTransfer.Proofs.Except
import SchemaTransfer.Proofs.Text.Trim
import SchemaTransfer.Text.WholeNumber

/-!
# What is read as a whole number

The grammar of whole numbers in text, and that a text is read exactly if it is of this grammar:
between blanks there is one sign at most, and behind it digits of any script, between two of which
there may be one low line. The reader trims the blanks and splits at the low lines instead.
-/
namespace SchemaTransfer.Text

variable {t : Text} {ds : List Nat}

/-! ## The grammar -/

/-- Digits, single low lines between them at most, and the values of the digits. -/
inductive Grouped : Text → List Nat → Prop
  | last {c : CodePoint} {d : Nat} (hc : c.digitValue? = some d) : Grouped [c] [d]
  | digit {c : CodePoint} {d : Nat} {t : Text} {ds : List Nat} (hc : c.digitValue? = some d)
    (ht : Grouped t ds) : Grouped (c :: t) (d :: ds)
  | lowLine {c : CodePoint} {d : Nat} {t : Text} {ds : List Nat} (hc : c.digitValue? = some d)
    (ht : Grouped t ds) : Grouped (c :: CodePoint.ofChar '_' :: t) (d :: ds)

/-- Grouped digits, not too many of them, and the number that they spell. -/
inductive Magnitude : Text → Nat → Prop
  | intro {t : Text} {ds : List Nat} (ht : Grouped t ds) (hfit : ds.length ≤ maxDigits) :
    Magnitude t (foldDigits 0 ds)

/-- One sign at most in front of a magnitude. -/
inductive Signed : Text → Int → Prop
  | none {t : Text} {n : Nat} (ht : Magnitude t n) : Signed t n
  | plus {t : Text} {n : Nat} (ht : Magnitude t n) : Signed (CodePoint.ofChar '+' :: t) n
  | minus {t : Text} {n : Nat} (ht : Magnitude t n) : Signed (CodePoint.ofChar '-' :: t) (-n)

/-- A number between blanks. -/
inductive SpellsWhole : Text → Int → Prop
  | intro {before t after : Text} {i : Int} (hbefore : ∀ c ∈ before, isBlankAroundNumber c)
    (hafter : ∀ c ∈ after, isBlankAroundNumber c) (ht : Signed t i) :
    SpellsWhole (before ++ (t ++ after)) i

/-! ## Digits are neither signs nor blanks -/

theorem isBlank_of_isBlankAroundNumber {c : CodePoint} (h : isBlankAroundNumber c) :
    c.isBlank := by
  unfold isBlankAroundNumber at h
  split at h
  · simp only [CodePoint.isAsciiBlank, Bool.or_eq_true, Bool.and_eq_true, decide_eq_true_eq] at h
    simp only [CodePoint.isBlank, Ranges.has, blankRanges, List.any_cons, Bool.or_eq_true,
      Bool.and_eq_true, decide_eq_true_eq]
    omega
  · exact h

theorem not_blank_of_digit {c : CodePoint} {d : Nat} (h : c.digitValue? = some d) :
    isBlankAroundNumber c = false := by
  have hapart : ∀ z ∈ zeroDigits, ∀ r ∈ blankRanges, z + 10 ≤ r.1 ∨ r.2 < z := by decide
  obtain ⟨z, hfind, -⟩ := Option.map_eq_some_iff.mp h
  have hz := hapart z (List.mem_of_find?_eq_some hfind)
  have hc := List.find?_some hfind
  simp only [Bool.and_eq_true, decide_eq_true_eq] at hc
  refine Bool.eq_false_iff.mpr fun hblank => ?_
  obtain ⟨r, hr, hin⟩ := List.any_eq_true.mp (isBlank_of_isBlankAroundNumber hblank)
  simp only [Bool.and_eq_true, decide_eq_true_eq] at hin
  have hdisjoint := hz r hr
  omega

theorem ne_of_digit {c e : CodePoint} {d : Nat} (he : e.digitValue? = none)
    (h : c.digitValue? = some d) : c ≠ e := by
  rintro rfl
  rw [he] at h
  cases h

theorem digitValue?_lowLine : (CodePoint.ofChar '_').digitValue? = none := by decide

theorem Grouped.head (h : Grouped t ds) :
    ∃ c rest d, t = c :: rest ∧ c.digitValue? = some d := by
  cases h with
  | last hc | digit hc | lowLine hc => exact ⟨_, _, _, rfl, hc⟩

theorem Grouped.last_digit (h : Grouped t ds) :
    ∃ front c d, t = front ++ [c] ∧ c.digitValue? = some d := by
  induction h with
  | last hc => exact ⟨[], _, _, rfl, hc⟩
  | digit hc _ ih =>
    obtain ⟨front, c, d, rfl, hlast⟩ := ih
    exact ⟨_ :: front, c, d, rfl, hlast⟩
  | lowLine hc _ ih =>
    obtain ⟨front, c, d, rfl, hlast⟩ := ih
    exact ⟨_ :: _ :: front, c, d, rfl, hlast⟩

theorem Magnitude.last_digit {n : Nat} (h : Magnitude t n) :
    ∃ front c d, t = front ++ [c] ∧ c.digitValue? = some d := by
  cases h with
  | intro ht => exact ht.last_digit

/-- There is nothing to trim from a signed number. -/
theorem Signed.bare {i : Int} (h : Signed t i) : Bare isBlankAroundNumber t := by
  have hlast : ∃ front c, t = front ++ [c] ∧ isBlankAroundNumber c = false := by
    cases h with
    | none ht =>
      obtain ⟨front, c, d, rfl, hc⟩ := ht.last_digit
      exact ⟨front, c, rfl, not_blank_of_digit hc⟩
    | plus ht | minus ht =>
      obtain ⟨front, c, d, rfl, hc⟩ := ht.last_digit
      exact ⟨_ :: front, c, rfl, not_blank_of_digit hc⟩
  refine ⟨?_, hlast⟩
  cases h with
  | none ht =>
    cases ht with
    | intro ht =>
      obtain ⟨c, rest, d, rfl, hc⟩ := ht.head
      exact ⟨c, rest, rfl, not_blank_of_digit hc⟩
  | plus | minus => exact ⟨_, _, rfl, by decide⟩

/-! ## Reading groups of digits -/

theorem digitGroup?_cons {c : CodePoint} {g : List Nat} :
    digitGroup? (c :: t) = some g ↔
      ∃ d es, c.digitValue? = some d ∧ t.mapM CodePoint.digitValue? = some es ∧ g = d :: es := by
  simp only [digitGroup?, List.isEmpty_cons, Bool.false_eq_true, if_false, mapM_eq_some,
    List.forall₂_cons_left_iff]

/-- The values of the digits in the groups between the low lines, if all of them are digits. -/
def groups? (t : Text) : Option (List (List Nat)) :=
  (splitAt (CodePoint.ofChar '_') t).mapM digitGroup?

theorem groups?_of_splitAt {part : Text} {parts : List Text} {groups : List (List Nat)}
    (ht : splitAt (CodePoint.ofChar '_') t = part :: parts) :
    groups? t = some groups ↔
      ∃ g gs, digitGroup? part = some g ∧ parts.mapM digitGroup? = some gs ∧ groups = g :: gs := by
  rw [groups?, ht, mapM_eq_some, List.forall₂_cons_left_iff]
  simp only [← mapM_eq_some]

theorem groups?_ne_nil (t : Text) : groups? t ≠ some [] := by
  intro h
  cases ht : splitAt (CodePoint.ofChar '_') t with
  | nil => exact absurd ht (splitAt_ne_nil _ t)
  | cons part parts =>
    obtain ⟨_, _, _, _, hnil⟩ := (groups?_of_splitAt ht).mp h
    cases hnil

theorem groups?_lowLine (t : Text) : groups? (CodePoint.ofChar '_' :: t) = none := by
  rw [groups?, splitAt_separator, List.mapM_cons]
  rfl

theorem groups?_digit_lowLine {c : CodePoint} (hc : c ≠ CodePoint.ofChar '_')
    {groups : List (List Nat)} :
    groups? (c :: CodePoint.ofChar '_' :: t) = some groups ↔
      ∃ d gs, c.digitValue? = some d ∧ groups? t = some gs ∧ groups = [d] :: gs := by
  rw [groups?_of_splitAt (splitAt_cons hc (splitAt_separator _ t))]
  simp only [digitGroup?_cons, List.mapM_nil, Option.pure_def, Option.some.injEq, groups?]
  constructor
  · rintro ⟨_, gs, ⟨d, _, hd, rfl, rfl⟩, hgs, rfl⟩
    exact ⟨d, gs, hd, hgs, rfl⟩
  · rintro ⟨d, gs, hd, hgs, rfl⟩
    exact ⟨[d], gs, ⟨d, [], hd, rfl, rfl⟩, hgs, rfl⟩

/-- A digit in front of another digit belongs to its group. -/
theorem groups?_digit {c e : CodePoint} (hc : c ≠ CodePoint.ofChar '_')
    (he : e ≠ CodePoint.ofChar '_') {groups : List (List Nat)} :
    groups? (c :: e :: t) = some groups ↔
      ∃ d g gs, c.digitValue? = some d ∧ groups? (e :: t) = some (g :: gs) ∧
        groups = (d :: g) :: gs := by
  cases ht : splitAt (CodePoint.ofChar '_') t with
  | nil => exact absurd ht (splitAt_ne_nil _ t)
  | cons part parts =>
    have hrest := splitAt_cons he ht
    rw [groups?_of_splitAt (splitAt_cons hc hrest)]
    constructor
    · rintro ⟨_, gs, hgroup, hgs, rfl⟩
      obtain ⟨d, g, hd, hg, rfl⟩ := digitGroup?_cons.mp hgroup
      exact ⟨d, g, gs, hd, (groups?_of_splitAt hrest).mpr ⟨g, gs, hg, hgs, rfl⟩, rfl⟩
    · rintro ⟨d, g, gs, hd, hg, rfl⟩
      obtain ⟨_, _, hg, hgs, heq⟩ := (groups?_of_splitAt hrest).mp hg
      cases heq
      exact ⟨d :: g, gs, digitGroup?_cons.mpr ⟨d, g, hd, hg, rfl⟩, hgs, rfl⟩

theorem Grouped.of_groups? : ∀ {t : Text} {groups : List (List Nat)},
    groups? t = some groups → Grouped t groups.flatten
  | [], _, h => by cases h
  | [c], groups, h => by
    by_cases hc : c = CodePoint.ofChar '_'
    · rw [hc, groups?_lowLine] at h
      cases h
    · obtain ⟨_, _, hg, hgs, rfl⟩ := (groups?_of_splitAt (splitAt_cons hc rfl)).mp h
      obtain ⟨d, es, hd, hes, rfl⟩ := digitGroup?_cons.mp hg
      cases hes
      cases hgs
      exact .last hd
  | c :: e :: t, groups, h => by
    by_cases hc : c = CodePoint.ofChar '_'
    · rw [hc, groups?_lowLine] at h
      cases h
    by_cases he : e = CodePoint.ofChar '_'
    · subst he
      obtain ⟨d, gs, hd, hgs, rfl⟩ := (groups?_digit_lowLine hc).mp h
      exact .lowLine hd (of_groups? hgs)
    · obtain ⟨d, g, gs, hd, hgs, rfl⟩ := (groups?_digit hc he).mp h
      exact .digit hd (of_groups? hgs)

theorem Grouped.groups?_eq_some (h : Grouped t ds) :
    ∃ groups, groups? t = some groups ∧ groups.flatten = ds := by
  induction h with
  | @last c d hd =>
    have hc := ne_of_digit digitValue?_lowLine hd
    refine ⟨[[d]], (groups?_of_splitAt (splitAt_cons hc rfl)).mpr ⟨[d], [], ?_, rfl, rfl⟩, rfl⟩
    exact digitGroup?_cons.mpr ⟨d, [], hd, rfl, rfl⟩
  | @digit c d t ds hd ht ih =>
    obtain ⟨groups, hgroups, rfl⟩ := ih
    obtain ⟨e, rest, d', rfl, he⟩ := ht.head
    cases groups with
    | nil => exact absurd hgroups (groups?_ne_nil _)
    | cons g gs =>
      have hc := ne_of_digit digitValue?_lowLine hd
      exact ⟨(d :: g) :: gs, (groups?_digit hc (ne_of_digit digitValue?_lowLine he)).mpr
        ⟨d, g, gs, hd, hgroups, rfl⟩, rfl⟩
  | @lowLine c d t ds hd _ ih =>
    obtain ⟨groups, hgroups, rfl⟩ := ih
    have hc := ne_of_digit digitValue?_lowLine hd
    exact ⟨[d] :: groups, (groups?_digit_lowLine hc).mpr ⟨d, groups, hd, hgroups, rfl⟩, rfl⟩

/-! ## Reading numbers -/

theorem unsigned?_eq_some {n : Nat} : unsigned? t = some n ↔ Magnitude t n := by
  have hunsigned : unsigned? t = (groups? t).bind fun groups =>
      if groups.flatten.length ≤ maxDigits then some (foldDigits 0 groups.flatten) else none := by
    rw [unsigned?, groups?]
    cases (splitAt '_' t).mapM digitGroup? <;> rfl
  rw [hunsigned, Option.bind_eq_some_iff]
  constructor
  · intro h
    obtain ⟨groups, hgroups, h⟩ := h
    split at h
    · next hfit =>
      cases h
      exact .intro (.of_groups? hgroups) hfit
    · cases h
  · intro h
    obtain ⟨ht, hfit⟩ := h
    obtain ⟨groups, hgroups, rfl⟩ := ht.groups?_eq_some
    exact ⟨groups, hgroups, if_pos hfit⟩

theorem Magnitude.head {n : Nat} (h : Magnitude t n) :
    ∃ c rest d, t = c :: rest ∧ c.digitValue? = some d := by
  cases h with
  | intro ht => exact ht.head

/-- What is read of a text from which the blanks were trimmed. -/
def signed? : Text → Option Int
  | [] => none
  | c :: rest =>
    if c = '-' then (unsigned? rest).map fun n : Nat => -(n : Int)
    else if c = '+' then (unsigned? rest).map Int.ofNat
    else (unsigned? (c :: rest)).map Int.ofNat

theorem wholeNumber?_eq (t : Text) : wholeNumber? t = signed? (trim isBlankAroundNumber t) := by
  rw [wholeNumber?]
  cases trim isBlankAroundNumber t with
  | nil => rfl
  | cons c rest =>
    dsimp only
    rw [signed?]
    cases unsigned? rest <;> rfl

theorem signed?_eq_some {i : Int} : signed? t = some i ↔ Signed t i := by
  constructor
  · intro h
    cases t with
    | nil => cases h
    | cons c rest =>
      rw [signed?] at h
      split at h
      · next hc =>
        obtain ⟨n, hn, rfl⟩ := Option.map_eq_some_iff.mp h
        rw [hc]
        exact .minus (unsigned?_eq_some.mp hn)
      split at h
      · next hc =>
        obtain ⟨n, hn, rfl⟩ := Option.map_eq_some_iff.mp h
        rw [hc]
        exact .plus (unsigned?_eq_some.mp hn)
      · obtain ⟨n, hn, rfl⟩ := Option.map_eq_some_iff.mp h
        exact .none (unsigned?_eq_some.mp hn)
  · intro h
    cases h with
    | none ht =>
      obtain ⟨c, rest, d, rfl, hc⟩ := ht.head
      rw [signed?, if_neg (ne_of_digit (by decide) hc), if_neg (ne_of_digit (by decide) hc),
        unsigned?_eq_some.mpr ht]
      rfl
    | plus ht =>
      rw [signed?, if_neg (by decide), if_pos rfl, unsigned?_eq_some.mpr ht]
      rfl
    | minus ht =>
      rw [signed?, if_pos rfl, unsigned?_eq_some.mpr ht]
      rfl

/-- A text is read as a whole number exactly if it spells one, and then as that number. -/
theorem wholeNumber?_eq_some {i : Int} : wholeNumber? t = some i ↔ SpellsWhole t i := by
  rw [wholeNumber?_eq, signed?_eq_some]
  constructor
  · intro h
    obtain ⟨before, after, ht, hbefore, hafter⟩ := eq_surrounded_trim isBlankAroundNumber t
    rw [ht]
    exact .intro hbefore hafter h
  · rintro ⟨hbefore, hafter, ht⟩
    rwa [trim_surrounded hbefore hafter ht.bare]

example : wholeNumber? " +1_0\u00A0" = some 10 := by decide +kernel

end SchemaTransfer.Text
