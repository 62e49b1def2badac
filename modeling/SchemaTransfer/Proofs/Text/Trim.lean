import Mathlib.Data.List.DropRight
import SchemaTransfer.Text.CodePoint

/-!
# Trimming and splitting

Trimming takes away what is in excess at the two ends and nothing else. A text that neither begins
nor ends with any of it is therefore still there after trimming, whatever stood around it. A part
without the separator is cut off whole.
-/
namespace SchemaTransfer.Text

variable {p : CodePoint → Bool} {before after t : Text}

/-! ## Trimming -/

/-- A text that has something in it, and at neither end a code point that satisfies `p`. -/
structure Bare (p : CodePoint → Bool) (t : Text) : Prop where
  first : ∃ c rest, t = c :: rest ∧ p c = false
  last : ∃ rest c, t = rest ++ [c] ∧ p c = false

theorem bare_iff : Bare p t ↔
    (t.head?.any fun c => !p c) = true ∧ (t.getLast?.any fun c => !p c) = true := by
  simp only [Option.any_eq_true, List.head?_eq_some_iff, List.getLast?_eq_some_iff,
    Bool.not_eq_true']
  constructor
  · rintro ⟨⟨c, rest, hfirst, hc⟩, front, d, hlast, hd⟩
    exact ⟨⟨c, ⟨rest, hfirst⟩, hc⟩, d, ⟨front, hlast⟩, hd⟩
  · rintro ⟨⟨c, ⟨rest, hfirst⟩, hc⟩, d, ⟨front, hlast⟩, hd⟩
    exact ⟨⟨c, rest, hfirst, hc⟩, front, d, hlast, hd⟩

instance (p : CodePoint → Bool) (t : Text) : Decidable (Bare p t) := decidable_of_iff' _ bare_iff

theorem Bare.of_forall {q : CodePoint → Bool} (ht : Bare p t) (h : ∀ c ∈ t, q c = false) :
    Bare q t := by
  obtain ⟨⟨c, rest, hfirst, -⟩, front, d, hlast, -⟩ := ht
  exact ⟨⟨c, rest, hfirst, h c (by simp [hfirst])⟩, front, d, hlast, h d (by simp [hlast])⟩

/-- The ends decide, whatever lies between them. -/
theorem Bare.append {s : Text} (hs : Bare p s) (ht : Bare p t) (middle : Text) :
    Bare p (s ++ (middle ++ t)) := by
  obtain ⟨c, rest, rfl, hc⟩ := hs.first
  obtain ⟨front, d, rfl, hd⟩ := ht.last
  exact ⟨⟨c, _, rfl, hc⟩, c :: rest ++ (middle ++ front), d, by simp, hd⟩

theorem trim_eq_rdropWhile (p : CodePoint → Bool) (t : Text) :
    trim p t = (t.dropWhile p).rdropWhile p := rfl

theorem rdropWhile_append (ht : Bare p t) (rest : Text) :
    (t ++ rest).rdropWhile p = t ++ rest.rdropWhile p := by
  induction rest using List.reverseRecOn with
  | nil =>
    obtain ⟨front, c, rfl, hc⟩ := ht.last
    rw [List.append_nil, List.rdropWhile_nil, List.append_nil]
    exact List.rdropWhile_concat_neg p front c (by simp [hc])
  | append_singleton rest c ih =>
    rw [← List.append_assoc]
    by_cases hc : p c
    · rw [List.rdropWhile_concat_pos p _ c hc, List.rdropWhile_concat_pos p _ c hc, ih]
    · rw [List.rdropWhile_concat_neg p _ c hc, List.rdropWhile_concat_neg p _ c hc,
        List.append_assoc]

theorem rdropWhile_append_excess (ha : ∀ c ∈ after, p c) (t : Text) :
    (t ++ after).rdropWhile p = t.rdropWhile p := by
  rw [List.rdropWhile, List.rdropWhile, List.reverse_append, List.dropWhile_append_of_pos]
  exact fun c hc => ha c (List.mem_reverse.mp hc)

/-- What is trimmed in front of a bare text is all in excess, and what is trimmed behind it is
trimmed from the rest alone. -/
theorem trim_append (hb : ∀ c ∈ before, p c) (ht : Bare p t) (rest : Text) :
    trim p (before ++ (t ++ rest)) = t ++ rest.rdropWhile p := by
  have hfront : (before ++ (t ++ rest)).dropWhile p = t ++ rest := by
    obtain ⟨c, tail, rfl, hc⟩ := ht.first
    rw [List.dropWhile_append_of_pos hb, List.cons_append,
      List.dropWhile_cons_of_neg (by simp [hc])]
  rw [trim_eq_rdropWhile, hfront, rdropWhile_append ht]

theorem trim_surrounded (hb : ∀ c ∈ before, p c) (ha : ∀ c ∈ after, p c) (ht : Bare p t) :
    trim p (before ++ (t ++ after)) = t := by
  rw [trim_append hb ht, List.rdropWhile_eq_nil_iff.mpr ha, List.append_nil]

/-- A text is what trimming leaves of it with something in excess on both sides. -/
theorem eq_surrounded_trim (p : CodePoint → Bool) (t : Text) : ∃ before after,
    t = before ++ (trim p t ++ after) ∧ (∀ c ∈ before, p c) ∧ ∀ c ∈ after, p c := by
  refine ⟨t.takeWhile p, (t.dropWhile p).rtakeWhile p, ?_, fun c => List.mem_takeWhile_imp,
    fun c => List.mem_rtakeWhile_imp⟩
  rw [trim_eq_rdropWhile, List.rdropWhile_append_rtakeWhile, List.takeWhile_append_dropWhile]

/-! ## Splitting -/

variable {separator : CodePoint}

theorem splitAt_ne_nil (separator : CodePoint) (t : Text) : splitAt separator t ≠ [] := by
  cases t with
  | nil => simp [splitAt]
  | cons c rest =>
    rw [splitAt]
    split
    · simp
    · split <;> simp

theorem splitAt_separator (separator : CodePoint) (t : Text) :
    splitAt separator (separator :: t) = [] :: splitAt separator t :=
  if_pos rfl

theorem splitAt_cons {c : CodePoint} {part : Text} {parts : List Text} (hc : c ≠ separator)
    (ht : splitAt separator t = part :: parts) :
    splitAt separator (c :: t) = (c :: part) :: parts := by
  rw [splitAt, if_neg hc, ht]

theorem splitAt_of_notMem (h : separator ∉ t) : splitAt separator t = [t] := by
  induction t with
  | nil => rfl
  | cons c rest ih =>
    rw [List.mem_cons, not_or] at h
    exact splitAt_cons (fun hc => h.1 hc.symm) (ih h.2)

/-- The part in front of the first separator comes first. -/
theorem splitAt_append (h : separator ∉ t) (rest : Text) :
    splitAt separator (t ++ separator :: rest) = t :: splitAt separator rest := by
  induction t with
  | nil => exact splitAt_separator separator rest
  | cons c tail ih =>
    rw [List.mem_cons, not_or] at h
    exact splitAt_cons (fun hc => h.1 hc.symm) (ih h.2)

end SchemaTransfer.Text
