import SchemaTransfer.Text.Blank
import SchemaTransfer.Text.Digit
import SchemaTransfer.Text.Numeral

/-!
# Reading whole numbers

A whole number in text may stand between blanks, carry a sign and have single low lines between its
digits, which may be the decimal digits of any script. At most 4300 digits are read.
-/
namespace SchemaTransfer.Text

/-- The most digits that a number read from text may have. -/
def maxDigits : Nat := 4300

/-- What is said of a number of `count` digits where more than `maxDigits` are an error. -/
def tooManyDigits (count : Nat) : Text :=
  "Exceeds the limit (" ++ ofNat maxDigits ++ " digits) for integer string conversion: value has " ++
    ofNat count ++ " digits; use sys.set_int_max_str_digits() to increase the limit"

/-- What is said of a number of more than `maxDigits` digits that was to be put into text. -/
def longInteger : Text :=
  "Exceeds the limit (" ++ ofNat maxDigits ++ " digits) for integer string conversion; " ++
    "use sys.set_int_max_str_digits() to increase the limit"

/-- Blank around a number: below 127 the four separators 1C to 1F do not count. -/
def isBlankAroundNumber (c : CodePoint) : Bool :=
  if c.val < 127 then c.isAsciiBlank else c.isBlank

/-- The digit values of a text that holds nothing but digits, and at least one. -/
def digitGroup? (t : Text) : Option (List Nat) :=
  if t.isEmpty then none else t.mapM CodePoint.digitValue?

/-- The value of digits in groups that single low lines separate. -/
def unsigned? (t : Text) : Option Nat :=
  match (splitAt '_' t).mapM digitGroup? with
  | none => none
  | some groups =>
    if groups.flatten.length ≤ maxDigits then some (foldDigits 0 groups.flatten) else none

def wholeNumber? (t : Text) : Option Int :=
  match trim isBlankAroundNumber t with
  | [] => none
  | c :: rest =>
    if c = '-' then (unsigned? rest).map fun n => -(n : Int)
    else if c = '+' then (unsigned? rest).map Int.ofNat
    else (unsigned? (c :: rest)).map Int.ofNat

end SchemaTransfer.Text
