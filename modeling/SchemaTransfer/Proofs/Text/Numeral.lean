import Mathlib.Data.List.Basic
import Mathlib.Tactic.Ring
import SchemaTransfer.Text.WholeNumber

/-!
# Decimal text spells its number

The digits of a number have that number as their value, and a number whose digits are written has
no more of them than any other text of digits with the same value. What is read as a whole number
is therefore never longer, written again, than it was.
-/
namespace SchemaTransfer

namespace CodePoint

theorem val_ofDigit {d : Nat} (h : d < 10) : (ofDigit d).val = 0x30 + d :=
  val_ofNat (by omega)

theorem isAsciiDigit_ofDigit {d : Nat} (h : d < 10) : (ofDigit d).isAsciiDigit = true := by
  simp only [isAsciiDigit, val_ofDigit h, Bool.and_eq_true, decide_eq_true_eq]
  omega

theorem isAsciiDigit_iff {c : CodePoint} : c.isAsciiDigit = true ↔ 0x30 ≤ c.val ∧ c.val ≤ 0x39 := by
  simp [isAsciiDigit]

end CodePoint

theorem foldDigits_append (acc : Nat) (a b : List Nat) :
    foldDigits acc (a ++ b) = foldDigits (foldDigits acc a) b :=
  List.foldl_append

theorem foldDigits_decimalDigits (n : Nat) : foldDigits 0 (decimalDigits n) = n := by
  induction n using Nat.strongRecOn with
  | ind n ih =>
    rw [decimalDigits]
    split
    · simp [foldDigits]
    · rw [foldDigits_append, ih (n / 10) (by omega)]
      simp only [foldDigits, List.foldl_cons, List.foldl_nil]
      omega

theorem lt_ten_of_mem_decimalDigits {n d : Nat} (h : d ∈ decimalDigits n) : d < 10 := by
  induction n using Nat.strongRecOn with
  | ind n ih =>
    rw [decimalDigits] at h
    split at h
    · rw [List.mem_singleton] at h
      omega
    · rcases List.mem_append.mp h with hd | hd
      · exact ih (n / 10) (by omega) hd
      · rw [List.mem_singleton] at hd
        omega

theorem decimalDigits_ne_nil (n : Nat) : decimalDigits n ≠ [] := by
  rw [decimalDigits]
  split <;> simp

/-- A number of at most `k` digits is less than the `k`th power of ten. -/
theorem length_decimalDigits_le {n k : Nat} (hk : 0 < k) (h : n < 10 ^ k) :
    (decimalDigits n).length ≤ k := by
  induction k generalizing n with
  | zero => omega
  | succ k ih =>
    rw [decimalDigits]
    split
    · simp
    · have hn : n / 10 < 10 ^ k := by
        rw [Nat.pow_succ] at h
        omega
      have hpos : 0 < k := by
        rcases Nat.eq_zero_or_pos k with rfl | hk
        · simp at hn
          omega
        · exact hk
      have := ih hpos hn
      simp only [List.length_append, List.length_singleton]
      omega

/-- A number other than zero does not begin with a zero. -/
theorem head_decimalDigits_ne_zero {n : Nat} (h : 0 < n) : (decimalDigits n).head? ≠ some 0 := by
  induction n using Nat.strongRecOn with
  | ind n ih =>
    rw [decimalDigits]
    split
    · simp only [List.head?_cons, ne_eq, Option.some.injEq]
      omega
    · rw [List.head?_append_of_ne_nil _ (decimalDigits_ne_nil _)]
      exact ih (n / 10) (by omega) (by omega)

namespace Text

theorem digitsValue_append (a b : Text) :
    digitsValue (a ++ b) = foldDigits (digitsValue a) (b.map fun c => c.val - 0x30) := by
  rw [digitsValue, List.map_append, foldDigits_append, digitsValue]

theorem digitsValue_ofNat (n : Nat) : digitsValue (ofNat n) = n := by
  have h : ((decimalDigits n).map CodePoint.ofDigit).map (fun c => c.val - 0x30) =
      decimalDigits n := by
    rw [List.map_map]
    conv_rhs => rw [← List.map_id (decimalDigits n)]
    apply List.map_congr_left
    intro d hd
    have := CodePoint.val_ofDigit (lt_ten_of_mem_decimalDigits hd)
    simp only [Function.comp_apply, id_eq]
    omega
  rw [digitsValue, ofNat, h, foldDigits_decimalDigits]

theorem isAsciiDigit_of_mem_ofNat {n : Nat} {c : CodePoint} (h : c ∈ ofNat n) :
    c.isAsciiDigit = true := by
  obtain ⟨d, hd, rfl⟩ := List.mem_map.mp h
  exact CodePoint.isAsciiDigit_ofDigit (lt_ten_of_mem_decimalDigits hd)

theorem head_ofNat_ne_zero {n : Nat} (h : 0 < n) : (ofNat n).head? ≠ some (CodePoint.ofChar '0') := by
  have hd := head_decimalDigits_ne_zero h
  have hlt : ∀ d ∈ decimalDigits n, d < 10 := fun d => lt_ten_of_mem_decimalDigits
  rw [ofNat]
  generalize decimalDigits n = digits at hd hlt
  cases digits with
  | nil => simp
  | cons d rest =>
    simp only [List.head?_cons, ne_eq, Option.some.injEq, List.map_cons] at hd ⊢
    intro hc
    have hval := congrArg CodePoint.val hc
    rw [CodePoint.val_ofDigit (hlt d (by simp))] at hval
    have hzero : (CodePoint.ofChar '0').val = 0x30 := rfl
    omega

theorem ofNat_ne_nil (n : Nat) : ofNat n ≠ [] := by
  simp [ofNat, decimalDigits_ne_nil]

theorem foldDigits_lt {t : Text} (h : ∀ c ∈ t, c.isAsciiDigit = true) (acc : Nat) :
    foldDigits acc (t.map fun c => c.val - 0x30) < (acc + 1) * 10 ^ t.length := by
  induction t generalizing acc with
  | nil => simp [foldDigits]
  | cons c t ih =>
    have hd := CodePoint.isAsciiDigit_iff.mp (h c (by simp))
    have hrest := ih (fun d hd => h d (by simp [hd])) (10 * acc + (c.val - 0x30))
    have hle : (10 * acc + (c.val - 0x30) + 1) * 10 ^ t.length ≤
        (acc + 1) * 10 ^ (t.length + 1) := by
      rw [Nat.pow_succ, Nat.mul_comm (10 ^ t.length), ← Nat.mul_assoc]
      exact Nat.mul_le_mul_right _ (by omega)
    exact Nat.lt_of_lt_of_le hrest hle

/-- A text of digits is worth less than the power of ten with as many zeros. -/
theorem digitsValue_lt {t : Text} (h : ∀ c ∈ t, c.isAsciiDigit = true) :
    digitsValue t < 10 ^ t.length := by
  have hlt := foldDigits_lt h 0
  rwa [Nat.zero_add, Nat.one_mul] at hlt

theorem digitsValue_zeros_append (k : Nat) (t : Text) :
    digitsValue (List.replicate k (CodePoint.ofChar '0') ++ t) = digitsValue t := by
  induction k with
  | zero => rfl
  | succ k ih =>
    rw [List.replicate_succ, List.cons_append, ← ih]
    rfl

theorem digitsValue_append_zeros (t : Text) (k : Nat) :
    digitsValue (t ++ List.replicate k (CodePoint.ofChar '0')) = digitsValue t * 10 ^ k := by
  induction k with
  | zero => simp
  | succ k ih =>
    rw [List.replicate_succ', ← List.append_assoc, digitsValue_append, ih, Nat.pow_succ,
      ← Nat.mul_assoc, Nat.mul_comm _ 10]
    rfl

/-- A number written anew has no more digits than a text that it was read from. -/
theorem length_decimalDigits_digitsValue {t : Text} (hne : t ≠ [])
    (h : ∀ c ∈ t, c.isAsciiDigit = true) : (decimalDigits (digitsValue t)).length ≤ t.length :=
  length_decimalDigits_le (List.length_pos_iff.mpr hne) (digitsValue_lt h)

end Text

end SchemaTransfer
