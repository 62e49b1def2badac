import SchemaTransfer.Proofs.Json.Outcome

/-!
# Fuel

A value needs no more fuel than twice the length of the text and one. With so much it is read, or
refused, in the same way as with any more, for what comes behind an opening bracket or a comma is
shorter than the text by that sign.
-/
namespace SchemaTransfer.Json

theorem length_skipBlank_le (t : Text) : (skipBlank t).length ≤ t.length :=
  (skipBlank_suffix t).length_le

/-- What comes behind an element or a member is the same for readers that agree behind a comma. -/
theorem continue_congr {close : CodePoint} {rest : Text} {done : Json}
    {next next' : Text → Except Stop (Json × Text)}
    (h : ∀ after, skipBlank rest = CodePoint.ofChar ',' :: after →
      next (skipBlank after) = next' (skipBlank after)) :
    (match expect close .comma (skipBlank rest) with
      | .ok after => .ok (done, after)
      | .error _ => do
        let rest ← expect ',' .comma (skipBlank rest)
        next (skipBlank rest)) =
    (match expect close .comma (skipBlank rest) with
      | .ok after => Except.ok (done, after)
      | .error _ => do
        let rest ← expect ',' .comma (skipBlank rest)
        next' (skipBlank rest)) := by
  cases expect close .comma (skipBlank rest) with
  | ok after => rfl
  | error stop =>
    cases hcomma : expect ',' .comma (skipBlank rest) with
    | error stop => rfl
    | ok after => exact h after (expect_eq_ok.mp hcomma)

/-- Where a comma stands the text is longer than what is read behind it. -/
theorem length_behind_comma {rest after : Text} (h : skipBlank rest = CodePoint.ofChar ',' :: after) :
    (skipBlank after).length + 1 ≤ rest.length := by
  have hafter := length_skipBlank_le after
  have hrest := length_skipBlank_le rest
  rw [h, List.length_cons] at hrest
  omega

theorem value_step {fuel : Nat}
    (he : ∀ done t, 2 * t.length + 2 ≤ fuel → elements (fuel + 1) done t = elements fuel done t)
    (hm : ∀ done t, 2 * t.length + 2 ≤ fuel → members (fuel + 1) done t = members fuel done t)
    (t : Text) (ht : 2 * t.length + 1 ≤ fuel + 1) : value (fuel + 1 + 1) t = value (fuel + 1) t := by
  cases t with
  | nil => rfl
  | cons c rest =>
    have hblank := length_skipBlank_le rest
    rw [List.length_cons] at ht
    rw [value, value, he [] (skipBlank rest) (by omega), hm [] (skipBlank rest) (by omega)]

theorem elements_step {fuel : Nat}
    (hv : ∀ t, 2 * t.length + 1 ≤ fuel → value (fuel + 1) t = value fuel t)
    (he : ∀ done t, 2 * t.length + 2 ≤ fuel → elements (fuel + 1) done t = elements fuel done t)
    (done : List Json) (t : Text) (ht : 2 * t.length + 2 ≤ fuel + 1) :
    elements (fuel + 1 + 1) done t = elements (fuel + 1) done t := by
  rw [elements, elements, hv t (by omega)]
  cases hread : value fuel t with
  | error stop => rfl
  | ok r =>
    have hrest := (suffix_of_value hread).length_le
    refine continue_congr fun after hafter => he _ _ ?_
    have hcomma := length_behind_comma hafter
    omega

theorem members_step {fuel : Nat}
    (hv : ∀ t, 2 * t.length + 1 ≤ fuel → value (fuel + 1) t = value fuel t)
    (hm : ∀ done t, 2 * t.length + 2 ≤ fuel → members (fuel + 1) done t = members fuel done t)
    (done : List (Text × Json)) (t : Text) (ht : 2 * t.length + 2 ≤ fuel + 1) :
    members (fuel + 1 + 1) done t = members (fuel + 1) done t := by
  rw [members, members]
  cases hquote : expect '"' .propertyName t with
  | error stop => rfl
  | ok body =>
    rw [expect_eq_ok.mp hquote] at ht ⊢
    cases hkey : stringBody (CodePoint.ofChar '"' :: body) body with
    | error stop => simp only [bind, Except.bind, hkey]
    | ok key =>
      cases hcolon : expect ':' .colon (skipBlank key.2) with
      | error stop => simp only [bind, Except.bind, hkey, hcolon]
      | ok behind =>
        have hbehind := (suffix_of_member hkey (expect_eq_ok.mp hcolon)).length_le
        simp only [bind, Except.bind, hkey, hcolon]
        rw [hv (skipBlank behind) (by omega)]
        cases hread : value fuel (skipBlank behind) with
        | error stop => rfl
        | ok r =>
          have hrest := (suffix_of_value hread).length_le
          refine continue_congr fun after hafter => hm _ _ ?_
          have hcomma := length_behind_comma hafter
          omega

/-- One more does not matter. -/
theorem fuel_step (fuel : Nat) :
    (∀ t, 2 * t.length + 1 ≤ fuel → value (fuel + 1) t = value fuel t) ∧
    (∀ done t, 2 * t.length + 2 ≤ fuel → elements (fuel + 1) done t = elements fuel done t) ∧
    ∀ done t, 2 * t.length + 2 ≤ fuel → members (fuel + 1) done t = members fuel done t := by
  induction fuel with
  | zero =>
    refine ⟨fun t ht => ?_, fun done t ht => ?_, fun done t ht => ?_⟩
    all_goals omega
  | succ fuel ih =>
    obtain ⟨hv, he, hm⟩ := ih
    exact ⟨value_step he hm, elements_step hv he, members_step hv hm⟩

theorem value_of_enough {fuel : Nat} {t : Text} (h : 2 * t.length + 1 ≤ fuel) :
    value fuel t = value (2 * t.length + 1) t := by
  induction fuel, h using Nat.le_induction with
  | base => rfl
  | succ fuel h ih => rw [(fuel_step fuel).1 t h, ih]

end SchemaTransfer.Json
