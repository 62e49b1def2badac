import SchemaTransfer.Regex.CharacterName
import SchemaTransfer.Regex.Reader

/-!
# Escapes in regular expressions

What a backslash and the code points after it stand for: a code point, a class, a condition on the
place, or a reference to a group.
-/
namespace SchemaTransfer.Regex.Reader

/-- The code points that a letter stands for after a backslash, inside sets and outside. -/
def controlEscape? (c : CodePoint) : Option CodePoint :=
  if c = 'a' then some (.ofNat 7)
  else if c = 'b' then some (.ofNat 8)
  else if c = 't' then some (.ofNat 9)
  else if c = 'n' then some (.ofNat 10)
  else if c = 'v' then some (.ofNat 11)
  else if c = 'f' then some (.ofNat 12)
  else if c = 'r' then some (.ofNat 13)
  else if c = '\\' then some c
  else none

/-- The classes that a letter stands for after a backslash. -/
def classEscape? (c : CodePoint) : Option SetItem :=
  if c = 'd' then some (.kind .digit false)
  else if c = 'D' then some (.kind .digit true)
  else if c = 's' then some (.kind .blank false)
  else if c = 'S' then some (.kind .blank true)
  else if c = 'w' then some (.kind .word false)
  else if c = 'W' then some (.kind .word true)
  else none

def anchorEscape? (c : CodePoint) : Option Anchor :=
  if c = 'A' then some .textStart
  else if c = 'Z' then some .textEnd
  else if c = 'b' then some .boundary
  else if c = 'B' then some .noBoundary
  else none

def isOctalDigit (c : CodePoint) : Bool := 0x30 ≤ c.val && c.val ≤ 0x37

def isHexDigit (c : CodePoint) : Bool := c.hexValue?.isSome

/-- The number that digits spell in base `base`, hexadecimal letters included. -/
def inBase (base : Nat) (digits : Text) : Nat :=
  digits.foldl (fun n c => base * n + c.hexValue?.getD 0) 0

/-- An escape by exactly `count` hexadecimal digits, of which the token `escape` is the beginning. -/
def hexEscape (escape : Text) (count : Nat) : Reader CodePoint := do
  let digits ← takeWhile isHexDigit count
  let whole := escape ++ digits
  if digits.length ≠ count then complain (.incompleteEscape whole) whole.length
  let n := inBase 16 digits
  if n < 0x110000 then return .ofNat n
  else if n < 0x80000000 then complain (.badEscape whole) whole.length
  else throw .codePointTooLarge

/-- An escape that is read alike inside sets and outside: by number or by name. -/
def numericEscape? (escape : Text) (c : CodePoint) : Reader (Option CodePoint) := do
  if c = 'x' then return some (← hexEscape escape 2)
  else if c = 'u' then return some (← hexEscape escape 4)
  else if c = 'U' then return some (← hexEscape escape 8)
  else if c = 'N' then
    if !(← accept '{') then complain .missingBrace 0
    let t ← name '}' "character name"
    match CodePoint.named? t with
    | some d => return some d
    | none =>
      -- A surrogate cannot be looked up; the letter then counts as one that means nothing.
      if t.any CodePoint.isSurrogate then return none
      else complain (.undefinedCharacter t) (t.length + 4)
  else return none

/-- A letter or digit after a backslash that means nothing is an error, all else means itself. -/
def plainEscape (escape : Text) (c : CodePoint) : Reader CodePoint :=
  if c.isAsciiLetter || c.isAsciiDigit then complain (.badEscape escape) escape.length
  else return c

/-- An octal escape, its digits complete. -/
def octalEscape (escape : Text) : Reader CodePoint := do
  let n := inBase 8 (escape.drop 1)
  if 0xFF < n then complain (.octalRange escape) escape.length else return .ofNat n

/-- An escape inside a character set. -/
def setEscape (escape : Text) : Reader SetItem := do
  let c := (escape[1]?).getD default
  match controlEscape? c, classEscape? c with
  | some d, _ => return .one d
  | none, some item => return item
  | none, none =>
    match ← numericEscape? escape c with
    | some d => return .one d
    | none =>
      if isOctalDigit c then
        return .one (← octalEscape (escape ++ (← takeWhile isOctalDigit 2)))
      else return .one (← plainEscape escape c)

/-- A reference to a group by its number. -/
def groupReference (escape : Text) : Reader Pattern := do
  let index := inBase 10 (escape.drop 1)
  if index < (← groupCount) then
    if !(← isClosed index) then complain .openGroup escape.length
    checkInLook index
    return .backreference index
  else complain (.invalidReference index) (escape.length - 1)

/-- A digit after a backslash outside a set: three octal digits are a code point, all else a
reference to a group. -/
def digitEscape (escape : Text) (c : CodePoint) : Reader Pattern := do
  if c = '0' then
    let digits ← takeWhile isOctalDigit 2
    return .literal (.ofNat (inBase 8 (escape.drop 1 ++ digits)))
  else
    let second ← takeWhile (·.isAsciiDigit) 1
    if isOctalDigit c && second.any isOctalDigit then
      let third ← takeWhile isOctalDigit 1
      if third.isEmpty then groupReference (escape ++ second)
      else return .literal (← octalEscape (escape ++ second ++ third))
    else groupReference (escape ++ second)

/-- An escape outside character sets. -/
def escape (escape : Text) : Reader Pattern := do
  let c := (escape[1]?).getD default
  match anchorEscape? c, classEscape? c, controlEscape? c with
  | some a, _, _ => return .anchor a
  | none, some item, _ => return .set false [item]
  | none, none, some d => return .literal d
  | none, none, none =>
    match ← numericEscape? escape c with
    | some d => return .literal d
    | none =>
      if c.isAsciiDigit then digitEscape escape c else return .literal (← plainEscape escape c)

end SchemaTransfer.Regex.Reader
