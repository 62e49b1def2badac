import Mathlib.Data.List.TakeWhile
import SchemaTransfer.Text.Newline

/-!
# Line ends

To unify the line ends of a text is to put a line feed in place of every carriage return, together
with the line feed behind it if there is one. All else stays as it is, so a text is cut in the same
places before and after, as long as the cut is not between the two.
-/
namespace SchemaTransfer.Text

/-- The second text is the first one with a line feed in place of every carriage return that has a
line feed behind it, the two together, and of every carriage return that has none. -/
inductive Unified : Text → Text → Prop
  | nil : Unified [] []
  | pair {t s : Text} (h : Unified t s) : Unified ('\r' :: '\n' :: t) ('\n' :: s)
  | lone {t s : Text} (hlone : t.head? ≠ some '\n') (h : Unified t s) :
    Unified ('\r' :: t) ('\n' :: s)
  | other {c : CodePoint} {t s : Text} (hc : c ≠ '\r') (h : Unified t s) :
    Unified (c :: t) (c :: s)

variable {c : CodePoint} {s t : Text}

theorem unifyNewlines_cons (h : c ≠ '\r') (t : Text) :
    unifyNewlines (c :: t) = c :: t.unifyNewlines := by
  rw [unifyNewlines, unifyFrom, if_neg h, if_neg (by simp), unifyNewlines]

theorem unifyNewlines_return (t : Text) :
    unifyNewlines ('\r' :: t) = CodePoint.ofChar '\n' :: unifyFrom true t := by
  rw [unifyNewlines, unifyFrom, if_pos rfl]

theorem unifyFrom_feed (t : Text) : unifyFrom true ('\n' :: t) = t.unifyNewlines := by
  rw [unifyFrom, if_neg (by decide), if_pos ⟨rfl, rfl⟩, unifyNewlines]

/-- Without a line feed at the head nothing hangs on what went before. -/
theorem unifyFrom_eq (h : t.head? ≠ some '\n') (afterReturn : Bool) :
    unifyFrom afterReturn t = t.unifyNewlines := by
  cases t with
  | nil => rfl
  | cons c t =>
    have hc : c ≠ '\n' := by simpa using h
    by_cases hr : c = '\r'
    · rw [hr, unifyNewlines_return, unifyFrom, if_pos rfl]
    · rw [unifyNewlines_cons hr, unifyFrom, if_neg hr, if_neg fun h => hc h.1, unifyNewlines]

theorem Unified.eq (h : Unified t s) : t.unifyNewlines = s := by
  induction h with
  | nil => rfl
  | pair _ ih => rw [unifyNewlines_return, unifyFrom_feed, ih]
  | lone hlone _ ih => rw [unifyNewlines_return, unifyFrom_eq hlone, ih]
  | other hc _ ih => rw [unifyNewlines_cons hc, ih]

theorem unified_unifyNewlines (t : Text) : Unified t t.unifyNewlines := by
  induction hn : t.length using Nat.strong_induction_on generalizing t with
  | _ n ih =>
    subst hn
    cases t with
    | nil => exact .nil
    | cons c t =>
      by_cases hc : c = '\r'
      · subst hc
        rw [unifyNewlines_return]
        by_cases hlone : t.head? = some '\n'
        · obtain ⟨rest, rfl⟩ := List.head?_eq_some_iff.mp hlone
          rw [unifyFrom_feed]
          exact .pair (ih rest.length (by simp only [List.length_cons]; omega) rest rfl)
        · rw [unifyFrom_eq hlone]
          exact .lone hlone (ih t.length (Nat.lt_succ_self _) t rfl)
      · rw [unifyNewlines_cons hc]
        exact .other hc (ih t.length (Nat.lt_succ_self _) t rfl)

theorem length_unifyFrom_le (afterReturn : Bool) (t : Text) :
    (unifyFrom afterReturn t).length ≤ t.length := by
  induction t generalizing afterReturn with
  | nil => exact Nat.le_refl 0
  | cons c t ih =>
    have htrue := ih true
    have hfalse := ih false
    rw [unifyFrom]
    split
    · simp only [List.length_cons]
      omega
    · split
      · simp only [List.length_cons]
        omega
      · simp only [List.length_cons]
        omega

theorem length_unifyNewlines_le (t : Text) : t.unifyNewlines.length ≤ t.length :=
  length_unifyFrom_le false t

theorem unifyNewlines_eq_nil_iff : t.unifyNewlines = [] ↔ t = [] := by
  cases t with
  | nil => exact iff_of_true rfl rfl
  | cons c t =>
    by_cases hc : c = '\r'
    · simp [hc, unifyNewlines_return]
    · simp [unifyNewlines_cons hc]

/-- What does not begin with a line end begins with the same code point before. -/
theorem unifyNewlines_eq_cons (hn : c ≠ '\n') (h : t.unifyNewlines = c :: s) :
    ∃ r : Text, t = c :: r ∧ r.unifyNewlines = s := by
  cases t with
  | nil => cases h
  | cons d t =>
    by_cases hd : d = '\r'
    · rw [hd, unifyNewlines_return, List.cons.injEq] at h
      exact absurd h.1.symm hn
    · rw [unifyNewlines_cons hd, List.cons.injEq] at h
      exact ⟨t, by rw [h.1], h.2⟩

theorem unifyNewlines_append (h : ∀ c ∈ s, c ≠ '\r') (t : Text) :
    unifyNewlines (s ++ t) = s ++ t.unifyNewlines := by
  induction s with
  | nil => rfl
  | cons c s ih =>
    rw [List.cons_append, unifyNewlines_cons (h c List.mem_cons_self),
      ih fun d hd => h d (List.mem_cons_of_mem c hd), List.cons_append]

/-- A text without line ends stands at the head afterwards just if it does so before. -/
theorem isPrefix_unifyNewlines_iff (hr : ∀ c ∈ s, c ≠ '\r') (hn : ∀ c ∈ s, c ≠ '\n') :
    s <+: t.unifyNewlines ↔ s <+: t := by
  constructor
  · intro h
    induction s generalizing t with
    | nil => exact List.nil_prefix
    | cons c s ih =>
      obtain ⟨tail, htail⟩ := h
      obtain ⟨r, rfl, hunified⟩ := unifyNewlines_eq_cons (hn c List.mem_cons_self) htail.symm
      rw [List.cons_prefix_cons]
      exact ⟨rfl, ih (fun d hd => hr d (List.mem_cons_of_mem c hd))
        (fun d hd => hn d (List.mem_cons_of_mem c hd)) ⟨tail, hunified.symm⟩⟩
  · rintro ⟨tail, rfl⟩
    rw [unifyNewlines_append hr]
    exact List.prefix_append s _

section While

variable {p : CodePoint → Bool} (hr : p '\r' = false) (hn : p '\n' = false)

include hr hn

theorem takeWhile_unifyNewlines (t : Text) : t.unifyNewlines.takeWhile p = t.takeWhile p := by
  induction t with
  | nil => rfl
  | cons c t ih =>
    by_cases hc : c = '\r'
    · rw [hc, unifyNewlines_return, List.takeWhile_cons_of_neg (by simp [hn]),
        List.takeWhile_cons_of_neg (by simp [hr])]
    · rw [unifyNewlines_cons hc, List.takeWhile_cons, List.takeWhile_cons, ih]

theorem dropWhile_unifyNewlines (t : Text) :
    t.unifyNewlines.dropWhile p = unifyNewlines (t.dropWhile p) := by
  have htake : ∀ c ∈ t.takeWhile p, c ≠ '\r' := by
    intro c hc hcr
    have hp := List.mem_takeWhile_imp hc
    rw [hcr, hr] at hp
    cases hp
  have hwhole := unifyNewlines_append htake (t.dropWhile p)
  rw [List.takeWhile_append_dropWhile, ← takeWhile_unifyNewlines hr hn] at hwhole
  have hsame := List.takeWhile_append_dropWhile (p := p) (l := t.unifyNewlines)
  exact List.append_cancel_left (hsame.trans hwhole)

end While

end SchemaTransfer.Text
