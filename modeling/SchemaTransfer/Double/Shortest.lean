import SchemaTransfer.Text.Numeral
import SchemaTransfer.Double.Basic

/-!
# The shortest decimal that reads back

A magnitude is written with the fewest digits from which the same double is read, and among those
with the nearest to its value. Whatever digits are chosen have been read back first.
-/
namespace SchemaTransfer

/-- A decimal number `digits · 10 ^ exponent` without sign. -/
structure Decimal where
  digits : Nat
  exponent : Int
deriving DecidableEq

namespace Decimal

/-- Moves zeros at the end of the digits into the exponent, at most `fuel` of them. -/
def stripZeros : (fuel : Nat) → Decimal → Decimal
  | 0, d => d
  | fuel + 1, d =>
    if d.digits ≠ 0 ∧ d.digits % 10 = 0 then stripZeros fuel ⟨d.digits / 10, d.exponent + 1⟩ else d

end Decimal

namespace Double

/-- Whether the decimal is read as the magnitude of the given rank. -/
def readsAs (rank : Nat) (d : Decimal) : Bool :=
  ofDecimal false d.digits d.exponent = ofRank false rank

/-- The two neighbours of `n / unitsPerOne` among the multiples of `10 ^ exponent`, the nearer one
first; of two equally near ones the even one. -/
def neighbours (n : Nat) (exponent : Int) : Decimal × Decimal :=
  let num := if 0 ≤ exponent then n else n * Nat.pow 10 (-exponent).toNat
  let den := if 0 ≤ exponent then unitsPerOne * Nat.pow 10 exponent.toNat else unitsPerOne
  let q := num / den
  let r := num % den
  let below : Decimal := ⟨q, exponent⟩
  let above : Decimal := ⟨q + 1, exponent⟩
  if 2 * r < den ∨ (2 * r = den ∧ q % 2 = 0) then (below, above) else (above, below)

/-- The first of the neighbours, nearer one first, that is read back. -/
def onGrid? (rank : Nat) (exponent : Int) : Option Decimal :=
  let near := (neighbours (units rank) exponent).1.stripZeros 20
  let far := (neighbours (units rank) exponent).2.stripZeros 20
  if readsAs rank near then some near else if readsAs rank far then some far else none

/-- The exponent of the highest decimal digit of `n / unitsPerOne`, for `n > 0`. -/
def leadingExponent (n : Nat) : Int :=
  ((decimalDigits (n * Nat.pow 10 330 / unitsPerOne)).length : Int) - 331

/-- The decimal expansion of a magnitude, complete. -/
def expansion (rank : Nat) : Decimal := ⟨units rank * Nat.pow 5 1074, -1074⟩

/-- The hit on the first of `count` ever finer grids that has one. -/
def searchGrids (rank : Nat) (exponent : Int) : (count : Nat) → Decimal
  | 0 => expansion rank
  | count + 1 =>
    match onGrid? rank exponent with
    | some d => d
    | none => searchGrids rank (exponent - 1) count

/-- The shortest decimal for a magnitude. -/
def shortest (rank : Nat) : Decimal :=
  if rank = 0 then ⟨0, 0⟩ else searchGrids rank (leadingExponent (units rank)) 17

end Double

end SchemaTransfer
