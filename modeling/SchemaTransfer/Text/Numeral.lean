import SchemaTransfer.Text.CodePoint

/-!
# Decimal text of whole numbers
-/
namespace SchemaTransfer

/-- The decimal digits of `n`, the highest first; zero has one digit. -/
def decimalDigits (n : Nat) : List Nat :=
  if n < 10 then [n] else decimalDigits (n / 10) ++ [n % 10]
termination_by n
decreasing_by omega

/-- The number that a list of decimal digits spells, continuing from `acc`. -/
def foldDigits (acc : Nat) (digits : List Nat) : Nat :=
  digits.foldl (fun n d => 10 * n + d) acc

def CodePoint.ofDigit (d : Nat) : CodePoint := CodePoint.ofNat (0x30 + d)

namespace Text

def ofNat (n : Nat) : Text := (decimalDigits n).map CodePoint.ofDigit

def ofInt : Int → Text
  | .ofNat n => ofNat n
  | .negSucc n => '-' :: ofNat (n + 1)

/-- The number that a text of ASCII digits spells. -/
def digitsValue (t : Text) : Nat := foldDigits 0 (t.map fun c => c.val - 0x30)

end Text

end SchemaTransfer
