import SchemaTransfer.Double.Shortest

/-!
# How a double is written
-/
namespace SchemaTransfer

/-- Where positional notation ends. `point` is the place of the decimal point counted from before
the first digit, so that `0.001` has point -2 and `100.0` has point 3. -/
structure NumberLayout where
  leastPoint : Int
  greatestPoint : Int
  exponentWidth : Nat

/-- From one ten-thousandth up to below 10¹⁶ numbers are positional and keep a digit on both sides of
the point; all others have an exponent of at least two digits. -/
def doubleLayout : NumberLayout := ⟨-3, 16, 2⟩

namespace Text

def zeros (n : Nat) : Text := List.replicate n '0'

/-- `n` in decimal, filled up on the left with zeros. -/
def ofNatPadded (width n : Nat) : Text :=
  zeros (width - (ofNat n).length) ++ ofNat n

end Text

namespace NumberLayout

/-- Digits with the point at `point`. -/
def positional (digits : Text) (point : Int) : Text :=
  if point ≤ 0 then "0." ++ Text.zeros (-point).toNat ++ digits
  else if point.toNat < digits.length then
    digits.take point.toNat ++ "." ++ digits.drop point.toNat
  else digits ++ Text.zeros (point.toNat - digits.length) ++ ".0"

/-- Digits with the point after the first of them, and an exponent. -/
def scientific (l : NumberLayout) (digits : Text) (point : Int) : Text :=
  let mantissa : Text :=
    if digits.length ≤ 1 then digits else digits.take 1 ++ "." ++ digits.drop 1
  let exponent := point - 1
  mantissa ++ (if exponent < 0 then "e-" else "e+") ++
    Text.ofNatPadded l.exponentWidth exponent.natAbs

def render (l : NumberLayout) (d : Decimal) : Text :=
  let digits := Text.ofNat d.digits
  let point := (digits.length : Int) + d.exponent
  if l.leastPoint ≤ point ∧ point ≤ l.greatestPoint then positional digits point
  else l.scientific digits point

end NumberLayout

namespace Double

/-- The digits of a finite double, with its sign. -/
def finiteText (negative : Bool) (rank : Nat) : Text :=
  (if negative then "-" else "") ++ doubleLayout.render (shortest rank)

end Double

end SchemaTransfer
