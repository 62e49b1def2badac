/-!
# Doubles

Binary64 numbers as exact values. The finite magnitudes are counted from zero upwards: rank 0 is
zero, rank 1 the least subnormal, and each next rank the next larger magnitude. A magnitude is a
whole number of units of 2⁻¹⁰⁷⁴, so all arithmetic on it is exact arithmetic on `Nat`.
-/
namespace SchemaTransfer

/-- The number of finite magnitudes. -/
def Double.finiteRanks : Nat := 2047 * Nat.pow 2 52

inductive Double
  | nan
  | inf (negative : Bool)
  | finite (negative : Bool) (rank : Fin Double.finiteRanks)
deriving DecidableEq

namespace Double

/-- The number of units of 2⁻¹⁰⁷⁴ in a double of magnitude one. -/
def unitsPerOne : Nat := Nat.pow 2 1074

/-- The magnitude of the given rank in units of 2⁻¹⁰⁷⁴: above the subnormals, 2⁵² equally spaced
magnitudes make up each binade and the spacing doubles from one binade to the next. -/
def units (rank : Nat) : Nat :=
  let binade := Nat.pow 2 52
  if rank < binade then rank else (binade + rank % binade) * Nat.pow 2 (rank / binade - 1)

/-- The rank of the magnitude nearest to `num / den`; of two equally near ones the even rank. -/
def nearestRank (num den : Nat) : Nat :=
  let n := num * unitsPerOne
  let shift := Nat.log2 (n / den) - 52
  let d := den * Nat.pow 2 shift
  let q := n / d
  let r := n % d
  let up := decide (d < 2 * r) || (decide (2 * r = d) && decide (q % 2 = 1))
  shift * Nat.pow 2 52 + (if up then q + 1 else q)

/-- The double of the given sign and rank; ranks past the greatest magnitude are infinite. -/
def ofRank (negative : Bool) (rank : Nat) : Double :=
  if h : rank < finiteRanks then .finite negative ⟨rank, h⟩ else .inf negative

/-- The double nearest to `± mantissa · 10 ^ exponent`. Exponents far out of range are decided by
the count of digits, so that no needlessly large power is formed. -/
def ofDecimal (negative : Bool) (mantissa : Nat) (exponent : Int) : Double :=
  if mantissa = 0 then .finite negative ⟨0, by decide⟩
  else
    let digits : Int := Nat.log2 mantissa / 3 + 1
    if 310 < exponent then .inf negative
    else if exponent + digits < -330 then .finite negative ⟨0, by decide⟩
    else if 0 ≤ exponent then ofRank negative (nearestRank (mantissa * Nat.pow 10 exponent.toNat) 1)
    else ofRank negative (nearestRank mantissa (Nat.pow 10 (-exponent).toNat))

/-- The whole part, found by cutting off the fraction; `none` for infinities and NaN. -/
def truncate? : Double → Option Int
  | .finite negative rank =>
    let n := units rank / unitsPerOne
    some (if negative then -(n : Int) else n)
  | _ => none

/-- The value if it is a whole number. -/
def whole? : Double → Option Int
  | .finite negative rank =>
    if units rank % unitsPerOne = 0 then truncate? (.finite negative rank) else none
  | _ => none

/-- Both zeros. -/
def isZero : Double → Bool
  | .finite _ rank => rank.val = 0
  | _ => false

/-- Equality of values: the two zeros are equal, and NaN counts as equal to itself. -/
def same (a b : Double) : Bool := a = b || (a.isZero && b.isZero)

end Double

end SchemaTransfer
