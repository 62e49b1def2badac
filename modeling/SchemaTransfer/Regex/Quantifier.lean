import SchemaTransfer.Regex.Reader

/-!
# Quantifiers of regular expressions

A quantifier repeats the part in front of it. A brace that begins no quantifier stands for itself.
-/
namespace SchemaTransfer.Regex.Reader

/-- Counts from here on are too large. -/
def repeatLimit : Nat := 4294967295

def repeatCount (digits : Text) : Reader Nat := do
  if Text.maxDigits < digits.length then throw (.tooManyDigits digits.length)
  let n := Text.digitsValue digits
  if repeatLimit ≤ n then throw .repetitionTooLarge else return n

/-- The bounds in braces, the opening one taken; `none` if what follows it forms no quantifier. -/
def braces : Reader (Option (Nat × Option Nat)) := do
  if (← token) = [CodePoint.ofChar '}'] then return none
  let before ← get
  let start ← place
  let all := before.pattern.length
  let low ← takeWhile (·.isAsciiDigit) all
  let high ← if ← accept ',' then takeWhile (·.isAsciiDigit) all else pure low
  if !(← accept '}') then
    set before
    return none
  let least ← if low.isEmpty then pure 0 else repeatCount low
  if high.isEmpty then return some (least, none)
  let most ← repeatCount high
  if most < least then complainAt .repeatOrder start
  return some (least, some most)

/-- The bounds of the quantifier whose first code point, taken already, is `c`. -/
def bounds (c : CodePoint) : Reader (Option (Nat × Option Nat)) :=
  if c = '?' then return some (0, some 1)
  else if c = '*' then return some (0, none)
  else if c = '+' then return some (1, none)
  else braces

def mode : Reader Mode := do
  if ← accept '?' then return .lazy
  else if ← accept '+' then return .possessive
  else return .greedy

/-- The parts read so far, the last first, with the last of them repeated; `start` is the place of
the quantifier. -/
def repeatLast (start : Nat) (least : Nat) (most : Option Nat) (done : List Pattern) :
    Reader (List Pattern) :=
  match done with
  | [] | .anchor _ :: _ => complainAt .nothingToRepeat start
  | .repeated _ _ _ _ :: _ => complainAt .multipleRepeat start
  | p :: earlier => return .repeated (← mode) least most p :: earlier

end SchemaTransfer.Regex.Reader
