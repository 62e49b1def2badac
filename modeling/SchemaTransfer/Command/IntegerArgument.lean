import SchemaTransfer.Text.Blank
import SchemaTransfer.Text.WholeNumber

/-!
# Whole numbers among arguments

A whole number given as an argument may stand between white space and carry one sign. Zeros may stand in
front of it, with any low lines among them, and behind a point after it. Single low lines may separate
its digits, which are those of ASCII.
-/
namespace SchemaTransfer.IntegerArgument

/-- What is left of a number without the zeros in front, of which `last` is the one read last. One
zero is kept in front of a point and where nothing else comes. -/
def behindZeros? (last : CodePoint) : Text → Option Text
  | [] => some [last]
  | c :: rest =>
    if c = '0' ∨ c = '_' then behindZeros? c rest
    else if c = '.' then some (last :: c :: rest)
    else if c.isAsciiDigit then some (c :: rest)
    else none

def significant? : Text → Option Text
  | [] => none
  | c :: rest =>
    if c = '0' then behindZeros? c rest else if c.isAsciiDigit then some (c :: rest) else none

/-- What stands in front of a point, if nothing but zeros, and at least one, stands behind it. -/
def wholePart? (t : Text) : Option Text :=
  match t.dropWhile (· ≠ CodePoint.ofChar '.') with
  | [] => some t
  | _ :: zeros =>
    if zeros ≠ [] ∧ zeros.all (· = CodePoint.ofChar '0') then
      some (t.takeWhile (· ≠ CodePoint.ofChar '.'))
    else none

/-- The digits in groups that single low lines separate. -/
def digits? (t : Text) : Option Text :=
  let groups := Text.splitAt '_' t
  if groups.all fun g => !g.isEmpty && g.all CodePoint.isAsciiDigit then some groups.flatten else none

/-- The sign of a number, if it is a minus, and what stands behind a sign. -/
def sign : Text → Bool × Text
  | [] => (false, [])
  | c :: rest =>
    if c = '-' then (true, rest) else if c = '+' then (false, rest) else (false, c :: rest)

/-- The number that an argument gives. A minus counts among the digits that it may have. -/
def read? (t : Text) : Option Int := do
  let (negative, t) := sign (t.trim CodePoint.isWhiteSpace)
  let digits ← significant? t >>= wholePart? >>= digits?
  if Text.maxDigits < digits.length + negative.toNat then none
  else
    let n : Int := Text.digitsValue digits
    return if negative then -n else n

end SchemaTransfer.IntegerArgument
