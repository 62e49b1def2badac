import Mathlib.Data.Nat.Basic
import Mathlib.Tactic.Ring
import SchemaTransfer.Double.Shortest

/-!
# The shortest decimal reads back

Reading a decimal is rounding to the nearest magnitude, which depends on the sign in nothing and on
digits and exponent only through the number that they stand for. Whatever decimal is chosen for a
magnitude is rounded to that magnitude: on a grid this was checked before the choice, and the
complete expansion leaves nothing to round.
-/
namespace SchemaTransfer.Double

theorem units_eq (rank : Nat) :
    units rank = if rank < 2 ^ 52 then rank
      else (2 ^ 52 + rank % 2 ^ 52) * 2 ^ (rank / 2 ^ 52 - 1) := rfl

/-- The rank to which a decimal is rounded; beyond the greatest magnitude it is that of infinity. -/
def decimalRank (mantissa : Nat) (exponent : Int) : Nat :=
  if mantissa = 0 then 0
  else
    let digits : Int := Nat.log2 mantissa / 3 + 1
    if 310 < exponent then finiteRanks
    else if exponent + digits < -330 then 0
    else if 0 ≤ exponent then nearestRank (mantissa * Nat.pow 10 exponent.toNat) 1
    else nearestRank mantissa (Nat.pow 10 (-exponent).toNat)

theorem ofRank_of_lt {negative : Bool} {rank : Nat} (h : rank < finiteRanks) :
    ofRank negative rank = .finite negative ⟨rank, h⟩ := by
  rw [ofRank, dif_pos h]

theorem ofRank_finiteRanks (negative : Bool) : ofRank negative finiteRanks = .inf negative := by
  rw [ofRank, dif_neg (Nat.lt_irrefl _)]

theorem ofDecimal_eq_ofRank (negative : Bool) (mantissa : Nat) (exponent : Int) :
    ofDecimal negative mantissa exponent = ofRank negative (decimalRank mantissa exponent) := by
  have hzero : ofRank negative 0 = .finite negative ⟨0, by decide⟩ := ofRank_of_lt (by decide)
  simp only [ofDecimal, decimalRank]
  split
  · exact hzero.symm
  split
  · exact (ofRank_finiteRanks negative).symm
  split
  · exact hzero.symm
  split <;> rfl

/-- A magnitude that is read as a finite one of either sign is read so with the other sign too. -/
theorem decimalRank_of_readsAs {rank : Nat} {d : Decimal} (h : rank < finiteRanks)
    (hr : readsAs rank d = true) : decimalRank d.digits d.exponent = rank := by
  rw [readsAs, decide_eq_true_eq, ofDecimal_eq_ofRank, ofRank_of_lt h, ofRank] at hr
  split at hr
  · injection hr with _ hrank
    exact congrArg Fin.val hrank
  · cases hr

/-! ## Rounding a quotient -/

/-- Rounding looks at the quotient alone. -/
theorem nearestRank_mul_right (num den : Nat) {c : Nat} (hc : 0 < c) :
    nearestRank (num * c) (den * c) = nearestRank num den := by
  have hn : num * c * unitsPerOne = num * unitsPerOne * c := by ring
  have hd : ∀ s, den * c * 2 ^ s = den * 2 ^ s * c := fun s => by ring
  have hlt : ∀ a b : Nat, a * c < 2 * (b * c) ↔ a < 2 * b := fun a b => by
    rw [← Nat.mul_assoc]
    exact Nat.mul_lt_mul_right hc
  have heq : ∀ a b : Nat, 2 * (a * c) = b * c ↔ 2 * a = b := fun a b => by
    rw [← Nat.mul_assoc]
    exact Nat.mul_left_inj (Nat.ne_of_gt hc)
  simp only [nearestRank, Nat.pow_eq, hn, hd, Nat.mul_div_mul_right _ _ hc, Nat.mul_mod_mul_right,
    hlt, heq]

/-- A whole number of units that is a multiple of the spacing around it needs no rounding. -/
theorem nearestRank_exact {u s den : Nat} (hs : s = Nat.log2 u - 52) (hden : 0 < den)
    (hdvd : 2 ^ s ∣ u) {num : Nat} (hnum : num * unitsPerOne = u * den) :
    nearestRank num den = s * 2 ^ 52 + u / 2 ^ s := by
  have hdiv : u * den / (den * 2 ^ s) = u / 2 ^ s := by
    rw [Nat.mul_comm u den, Nat.mul_div_mul_left _ _ hden]
  have hmod : u * den % (den * 2 ^ s) = 0 := by
    rw [Nat.mul_comm u den, Nat.mul_mod_mul_left, Nat.mod_eq_zero_of_dvd hdvd, Nat.mul_zero]
  have hpos : 0 < den * 2 ^ s := Nat.mul_pos hden (Nat.two_pow_pos s)
  simp only [nearestRank, Nat.pow_eq, hnum, Nat.mul_div_cancel _ hden, ← hs, hdiv, hmod]
  rw [if_neg]
  simp only [Bool.or_eq_true, Bool.and_eq_true, decide_eq_true_eq]
  omega

/-- Above the subnormals a magnitude has the leading unit of its binade. -/
theorem log2_units {rank : Nat} (h : 2 ^ 52 ≤ rank) :
    Nat.log2 (units rank) = 52 + (rank / 2 ^ 52 - 1) := by
  have hlow : rank % 2 ^ 52 < 2 ^ 52 := Nat.mod_lt _ (Nat.two_pow_pos _)
  have hpos : 0 < 2 ^ (rank / 2 ^ 52 - 1) := Nat.two_pow_pos _
  rw [units_eq, if_neg (by omega)]
  have hne : (2 ^ 52 + rank % 2 ^ 52) * 2 ^ (rank / 2 ^ 52 - 1) ≠ 0 :=
    Nat.mul_ne_zero (by omega) (by omega)
  rw [Nat.log2_eq_iff hne, Nat.add_right_comm, Nat.pow_add, Nat.pow_add 2 (52 + 1)]
  exact ⟨Nat.mul_le_mul_right _ (by omega), Nat.mul_lt_mul_of_pos_right (by omega) hpos⟩

/-- A magnitude that is given by all its digits is read back. -/
theorem nearestRank_units (rank : Nat) {num den : Nat} (hden : 0 < den)
    (hnum : num * unitsPerOne = units rank * den) : nearestRank num den = rank := by
  by_cases h : rank < 2 ^ 52
  · have hu : units rank = rank := by rw [units_eq, if_pos h]
    have hs : 0 = Nat.log2 rank - 52 := by
      rcases Nat.eq_zero_or_pos rank with rfl | hpos
      · rfl
      · have := (Nat.log2_lt (Nat.ne_of_gt hpos)).mpr h
        omega
    rw [hu] at hnum
    rw [nearestRank_exact hs hden (Nat.one_dvd _) hnum]
    simp
  · have hlog := log2_units (Nat.le_of_not_lt h)
    have hu : units rank = (2 ^ 52 + rank % 2 ^ 52) * 2 ^ (rank / 2 ^ 52 - 1) := by
      rw [units_eq, if_neg h]
    have hs : rank / 2 ^ 52 - 1 = Nat.log2 (units rank) - 52 := by omega
    have hdvd : 2 ^ (rank / 2 ^ 52 - 1) ∣ units rank := ⟨_, hu.trans (Nat.mul_comm _ _)⟩
    rw [nearestRank_exact hs hden hdvd hnum, hu, Nat.mul_div_cancel _ (Nat.two_pow_pos _)]
    omega

/-! ## The decimal that is chosen -/

/-- The decimal is rounded to the magnitude of the given rank. -/
def ReadBack (rank : Nat) (d : Decimal) : Prop := decimalRank d.digits d.exponent = rank

theorem readBack_of_onGrid? {rank : Nat} (h : rank < finiteRanks) {exponent : Int} {d : Decimal}
    (hd : onGrid? rank exponent = some d) : ReadBack rank d := by
  rw [onGrid?] at hd
  split at hd
  · next hr =>
    cases hd
    exact decimalRank_of_readsAs h hr
  · split at hd
    · next hr =>
      cases hd
      exact decimalRank_of_readsAs h hr
    · cases hd

theorem ten_pow_pos (n : Nat) : 0 < 10 ^ n := Nat.pow_pos (by decide)

theorem mul_five_pow_pos {u : Nat} (n : Nat) (hu : 0 < u) : 0 < u * Nat.pow 5 n :=
  Nat.mul_pos hu (Nat.pow_pos (by decide))

/-- Four factors of five are worth nine binary digits. -/
theorem le_log2_mul_five_pow {u : Nat} (n : Nat) (hu : 0 < u) :
    9 * (n / 4) ≤ Nat.log2 (u * Nat.pow 5 n) := by
  have hpow : 2 ^ (9 * (n / 4)) ≤ 5 ^ n := by
    calc 2 ^ (9 * (n / 4)) = (2 ^ 9) ^ (n / 4) := Nat.pow_mul _ _ _
      _ ≤ (5 ^ 4) ^ (n / 4) := Nat.pow_le_pow_left (by decide) _
      _ = 5 ^ (4 * (n / 4)) := (Nat.pow_mul _ _ _).symm
      _ ≤ 5 ^ n := Nat.pow_le_pow_right (by decide) (Nat.mul_div_le n 4)
  have hle : 5 ^ n ≤ u * 5 ^ n := Nat.le_mul_of_pos_left _ hu
  exact (Nat.le_log2 (Nat.ne_of_gt (mul_five_pow_pos n hu))).mpr (hpow.trans hle)

theorem decimalRank_of_neg {mantissa : Nat} {exponent : Int} (hm : mantissa ≠ 0)
    (he : exponent < 0) (hlen : -330 ≤ exponent + (Nat.log2 mantissa / 3 + 1)) :
    decimalRank mantissa exponent = nearestRank mantissa (Nat.pow 10 (-exponent).toNat) := by
  simp only [decimalRank, if_neg hm]
  rw [if_neg (by omega), if_neg (by omega), if_neg (by omega)]

theorem nearestRank_expansion (rank : Nat) {n : Nat} (hn : unitsPerOne = Nat.pow 2 n) :
    nearestRank (units rank * Nat.pow 5 n) (Nat.pow 10 n) = rank := by
  apply nearestRank_units rank (ten_pow_pos n)
  rw [hn]
  simp only [Nat.pow_eq]
  rw [Nat.mul_assoc, ← Nat.mul_pow]

/-- The complete expansion is long enough not to count as zero. -/
theorem readBack_expansion {rank : Nat} (h : 0 < units rank) : ReadBack rank (expansion rank) := by
  have hlog := le_log2_mul_five_pow 1074 h
  have hne := Nat.ne_of_gt (mul_five_pow_pos 1074 h)
  change decimalRank (units rank * Nat.pow 5 1074) (-1074) = rank
  rw [decimalRank_of_neg hne (by decide) (by omega)]
  exact nearestRank_expansion rank rfl

theorem readBack_searchGrids {rank : Nat} (h : rank < finiteRanks) (hu : 0 < units rank)
    (exponent : Int) (count : Nat) : ReadBack rank (searchGrids rank exponent count) := by
  induction count generalizing exponent with
  | zero => exact readBack_expansion hu
  | succ count ih =>
    rw [searchGrids]
    split
    · next hd => exact readBack_of_onGrid? h hd
    · exact ih (exponent - 1)

theorem units_pos {rank : Nat} (h : rank ≠ 0) : 0 < units rank := by
  rw [units_eq]
  split
  · omega
  · exact Nat.mul_pos (by omega) (Nat.two_pow_pos _)

/-- The shortest decimal for a magnitude is read as that magnitude. -/
theorem readBack_shortest {rank : Nat} (h : rank < finiteRanks) :
    ReadBack rank (shortest rank) := by
  rw [shortest]
  split
  · next hz =>
    subst hz
    rfl
  · next hz => exact readBack_searchGrids h (units_pos hz) _ _

theorem ofDecimal_of_readBack {negative : Bool} {rank : Nat} {d : Decimal} (h : rank < finiteRanks)
    (hd : ReadBack rank d) : ofDecimal negative d.digits d.exponent = .finite negative ⟨rank, h⟩ := by
  rw [ofDecimal_eq_ofRank, hd, ofRank_of_lt h]

/-- Only zero is written with the digit zero alone, and without an exponent. -/
theorem exponent_eq_zero_of_digits_eq_zero {rank : Nat} (h : rank < finiteRanks)
    (hz : (shortest rank).digits = 0) : (shortest rank).exponent = 0 := by
  have hr := readBack_shortest h
  rw [ReadBack, hz, decimalRank, if_pos rfl] at hr
  subst hr
  rfl

/-! ## Zeros at the end of the digits -/

/-- Zeros behind the digits and in the exponent stand for the same number, as long as the exponent
is one of those that are looked at. -/
theorem decimalRank_shift {mantissa k : Nat} (hk : k ≤ 310) :
    decimalRank (mantissa * 10 ^ k * 10) (-1) = decimalRank mantissa k := by
  rcases Nat.eq_zero_or_pos mantissa with rfl | hpos
  · simp [decimalRank]
  have hten := ten_pow_pos k
  have hne : mantissa * 10 ^ k * 10 ≠ 0 :=
    Nat.mul_ne_zero (Nat.mul_ne_zero (by omega) (by omega)) (by decide)
  rw [decimalRank_of_neg hne (by decide) (by omega)]
  simp only [decimalRank, if_neg (show mantissa ≠ 0 by omega)]
  rw [if_neg (by omega), if_neg (by omega), if_pos (by omega)]
  exact nearestRank_mul_right (mantissa * 10 ^ k) 1 (by decide)

end SchemaTransfer.Double
