import SchemaTransfer.Json.Reader
import SchemaTransfer.Proofs.Except

/-!
# The steps of the reader

What one step of the reader takes in when it succeeds. A value is a string, an object, an array or a
scalar; a member and an element are followed by a closing bracket or by a comma and the next one.
-/
namespace SchemaTransfer.Json

theorem expect_cons (c : CodePoint) (cause : Cause) (t : Text) : expect c cause (c :: t) = .ok t := by
  rw [expect, if_pos rfl]

theorem expect_eq_ok {c : CodePoint} {cause : Cause} {t rest : Text} :
    expect c cause t = .ok rest ↔ t = c :: rest := by
  refine ⟨fun h => ?_, fun h => h ▸ expect_cons c cause rest⟩
  cases t with
  | nil => cases h
  | cons d t =>
    rw [expect] at h
    split at h
    · next hd =>
      cases h
      rw [hd]
    · cases h

/-- What follows an element of an array or a member of an object: the closing bracket, which ends
it, or a comma, behind which `next` takes over. -/
inductive Continues (close : CodePoint) (rest : Text) (done : Json)
    (next : Text → Except Stop (Json × Text)) (r : Json × Text) : Prop
  | close (after : Text) (hr : skipBlank rest = close :: after) (h : r = (done, after))
  | comma (after : Text) (hr : skipBlank rest = CodePoint.ofChar ',' :: after)
    (h : next (skipBlank after) = .ok r)

theorem continues_iff {close : CodePoint} {rest : Text} {done : Json}
    {next : Text → Except Stop (Json × Text)} {r : Json × Text}
    (hc : close ≠ CodePoint.ofChar ',') :
    (match expect close .comma (skipBlank rest) with
      | .ok after => .ok (done, after)
      | .error _ => do
        let rest ← expect ',' .comma (skipBlank rest)
        next (skipBlank rest)) = Except.ok r ↔ Continues close rest done next r := by
  constructor
  · intro h
    split at h
    · next after he =>
      cases h
      exact .close after (expect_eq_ok.mp he) rfl
    · obtain ⟨after, he, hn⟩ := bind_eq_ok.mp h
      exact .comma after (expect_eq_ok.mp he) hn
  · rintro (⟨after, hr, rfl⟩ | ⟨after, hr, hn⟩)
    · rw [hr, expect_cons]
    · rw [hr, expect, if_neg hc.symm]
      exact hn

theorem elements_eq_ok {fuel : Nat} {done : List Json} {t : Text} {r : Json × Text} :
    elements (fuel + 1) done t = .ok r ↔ ∃ v rest, value fuel t = .ok (v, rest) ∧
      Continues ']' rest (.array (done.reverse ++ [v])) (elements fuel (v :: done)) r := by
  rw [elements, bind_eq_ok, Prod.exists]
  refine exists_congr fun v => exists_congr fun rest => and_congr_right fun _ => ?_
  rw [← List.reverse_cons]
  exact continues_iff (by decide)

theorem members_eq_ok {fuel : Nat} {done : List (Text × Json)} {t : Text} {r : Json × Text} :
    members (fuel + 1) done t = .ok r ↔ ∃ body key colon afterColon v rest,
      t = CodePoint.ofChar '"' :: body ∧ stringBody t body = .ok (key, colon) ∧
      skipBlank colon = CodePoint.ofChar ':' :: afterColon ∧
      value fuel (skipBlank afterColon) = .ok (v, rest) ∧
      Continues '}' rest (.object (Entries.put key v done))
        (members fuel (Entries.put key v done)) r := by
  rw [members]
  simp only [bind_eq_ok, expect_eq_ok, Prod.exists]
  constructor
  · rintro ⟨body, ht, key, colon, hs, afterColon, hc, v, rest, hv, h⟩
    exact ⟨body, key, colon, afterColon, v, rest, ht, hs, hc, hv, (continues_iff (by decide)).mp h⟩
  · rintro ⟨body, key, colon, afterColon, v, rest, ht, hs, hc, hv, h⟩
    exact ⟨body, ht, key, colon, hs, afterColon, hc, v, rest, hv, (continues_iff (by decide)).mpr h⟩

/-! ## Values -/

/-- What is read as a scalar begins with no blank, no quote and no bracket. -/
theorem head_of_scalar {t : Text} {r : Json × Text} (h : scalar t = .ok r) :
    ∃ c rest, t = c :: rest ∧ isBlank c = false ∧
      c ∉ [CodePoint.ofChar '"', '{', '[', ']'] := by
  cases t with
  | nil => cases h
  | cons c rest =>
    have hc : ∀ d ∈ [CodePoint.ofChar ' ', '\t', '\n', '\r', '"', '{', '[', ']'], c ≠ d := by
      intro d hd hcd
      subst hcd
      simp only [List.mem_cons, List.not_mem_nil, or_false] at hd
      rcases hd with rfl | rfl | rfl | rfl | rfl | rfl | rfl | rfl <;> cases h
    refine ⟨c, rest, rfl, ?_, fun hm => ?_⟩
    · simp only [isBlank, Bool.or_eq_false_iff, decide_eq_false_iff_not]
      exact ⟨⟨⟨hc _ (by simp), hc _ (by simp)⟩, hc _ (by simp)⟩, hc _ (by simp)⟩
    · exact hc c (List.mem_append_right [CodePoint.ofChar ' ', '\t', '\n', '\r'] hm) rfl

/-- The kinds of values, each with what stands behind its opening. -/
inductive ValueStep (fuel : Nat) : Text → Json × Text → Prop
  | string {t s rest : Text} (h : stringBody ('"' :: t) t = .ok (s, rest)) :
    ValueStep fuel ('"' :: t) (.string s, rest)
  | emptyObject {t rest : Text} (h : skipBlank t = CodePoint.ofChar '}' :: rest) :
    ValueStep fuel ('{' :: t) (.object [], rest)
  | object {t : Text} {r : Json × Text} (h : members fuel [] (skipBlank t) = .ok r) :
    ValueStep fuel ('{' :: t) r
  | emptyArray {t rest : Text} (h : skipBlank t = CodePoint.ofChar ']' :: rest) :
    ValueStep fuel ('[' :: t) (.array [], rest)
  | array {t : Text} {r : Json × Text} (h : elements fuel [] (skipBlank t) = .ok r) :
    ValueStep fuel ('[' :: t) r
  | scalar {t : Text} {r : Json × Text} (h : scalar t = .ok r) : ValueStep fuel t r

theorem valueStep_of_value {fuel : Nat} {t : Text} {r : Json × Text}
    (h : value (fuel + 1) t = .ok r) : ValueStep fuel t r := by
  cases t with
  | nil => cases h
  | cons c t =>
    rw [value] at h
    split at h
    · next hc =>
      subst hc
      obtain ⟨⟨s, rest⟩, hs, rfl⟩ := map_eq_ok.mp h
      exact .string hs
    split at h
    · next hc =>
      subst hc
      split at h
      · next he =>
        cases h
        exact .emptyObject (expect_eq_ok.mp he)
      · exact .object h
    split at h
    · next hc =>
      subst hc
      split at h
      · next he =>
        cases h
        exact .emptyArray (expect_eq_ok.mp he)
      · exact .array h
    · exact .scalar h

theorem value_string {t s rest : Text} (fuel : Nat) (h : stringBody ('"' :: t) t = .ok (s, rest)) :
    value (fuel + 1) ('"' :: t) = .ok (.string s, rest) := by
  rw [value, if_pos rfl, h]
  rfl

theorem value_scalar {t : Text} {r : Json × Text} (fuel : Nat) (h : scalar t = .ok r) :
    value (fuel + 1) t = .ok r := by
  obtain ⟨c, rest, rfl, -, hc⟩ := head_of_scalar h
  simp only [List.mem_cons, List.not_mem_nil, or_false, not_or] at hc
  rw [value, if_neg hc.1, if_neg hc.2.1, if_neg hc.2.2.1, h]

theorem value_object {t : Text} {r : Json × Text} {fuel : Nat}
    (h : members fuel [] (skipBlank t) = .ok r) : value (fuel + 1) ('{' :: t) = .ok r := by
  have hne : ∀ after, expect '}' .propertyName (skipBlank t) ≠ .ok after := by
    intro after he
    rw [expect_eq_ok.mp he] at h
    cases fuel with
    | zero => cases h
    | succ fuel => obtain ⟨body, _, _, _, _, _, ht, -⟩ := members_eq_ok.mp h; cases ht
  rw [value, if_neg (by decide), if_pos rfl]
  split
  · next he => exact absurd he (hne _)
  · exact h

/-- What is read as a value begins with no blank and no closing bracket. -/
theorem head_of_value {fuel : Nat} {t : Text} {r : Json × Text} (h : value fuel t = .ok r) :
    ∃ c rest, t = c :: rest ∧ isBlank c = false ∧ c ≠ ']' := by
  cases fuel with
  | zero => cases h
  | succ fuel =>
    cases valueStep_of_value h with
    | string => exact ⟨_, _, rfl, by decide, by decide⟩
    | emptyObject => exact ⟨_, _, rfl, by decide, by decide⟩
    | object => exact ⟨_, _, rfl, by decide, by decide⟩
    | emptyArray => exact ⟨_, _, rfl, by decide, by decide⟩
    | array => exact ⟨_, _, rfl, by decide, by decide⟩
    | scalar h =>
      obtain ⟨c, rest, rfl, hb, hc⟩ := head_of_scalar h
      exact ⟨c, rest, rfl, hb, fun hm => hc (by simp [hm])⟩

theorem value_array {t : Text} {r : Json × Text} {fuel : Nat}
    (h : elements fuel [] (skipBlank t) = .ok r) : value (fuel + 1) ('[' :: t) = .ok r := by
  have hne : ∀ after, expect ']' .value (skipBlank t) ≠ .ok after := by
    intro after he
    rw [expect_eq_ok.mp he] at h
    cases fuel with
    | zero => cases h
    | succ fuel =>
      obtain ⟨v, rest, hv, -⟩ := elements_eq_ok.mp h
      obtain ⟨c, rest, hc, -, hne⟩ := head_of_value hv
      exact hne (List.cons.inj hc).1.symm
  rw [value, if_neg (by decide), if_neg (by decide), if_pos rfl]
  split
  · next he => exact absurd he (hne _)
  · exact h

end SchemaTransfer.Json
