import SchemaTransfer.Regex.Pattern
import SchemaTransfer.Text.Blank
import SchemaTransfer.Text.Digit
import SchemaTransfer.Text.LetterCase
import SchemaTransfer.Text.Word

/-!
# Matching single code points

Which code points a letter, a class or a character set of a pattern matches, under the flags for case
and for ASCII.
-/
namespace SchemaTransfer.Regex

def Flags.lower (f : Flags) (c : CodePoint) : CodePoint :=
  if f.ascii then c.toAsciiLower else c.toLower

/-- The lower-case letters that match `c` when case is ignored. -/
def Flags.lowerForms (f : Flags) (c : CodePoint) : List CodePoint :=
  if f.ascii then [c.toAsciiLower] else c.toLower :: c.toLower.siblings

/-- Whether `d` in the text matches `c` in the pattern. -/
def Flags.sameLetter (f : Flags) (c d : CodePoint) : Bool :=
  if f.ignoreCase then (f.lowerForms c).contains (f.lower d) else c = d

def Flags.inClass (f : Flags) : CharClass → CodePoint → Bool
  | .digit, c => if f.ascii then c.isAsciiDigit else c.isDigit
  | .blank, c => if f.ascii then c.isAsciiBlank else c.isBlank
  | .word, c => if f.ascii then c.isAsciiWord else c.isWord

def inRange (low high c : CodePoint) : Bool := low.val ≤ c.val && c.val ≤ high.val

/-- The code points that match `d` when case is ignored. -/
def Flags.variants (f : Flags) (d : CodePoint) : List CodePoint :=
  if f.ascii then
    let lower := d.toAsciiLower
    if lower.isAsciiLetter then [lower, .ofNat (lower.val - 0x20)] else [d]
  else (f.lowerForms d).flatMap (·.withLower)

/-- The last code point of the basic plane. -/
def lastBasic : Nat := 0xFFFF

/-- Whether `d` matches an item of a set. When case is ignored, an item beyond the basic plane is
compared with the lower case of `d` as it stands, so a capital matches nothing there, and a range that
leads beyond it also takes in the small letters whose capital it holds. -/
def Flags.inItem (f : Flags) (d : CodePoint) : SetItem → Bool
  | .one c =>
    if f.ignoreCase && lastBasic < c.val then f.lower d = c else f.sameLetter c d
  | .range low high =>
    if f.ignoreCase then
      (f.variants d).any (inRange low high) ||
        (lastBasic < high.val && inRange low high (f.lower d).firstCapital)
    else inRange low high d
  | .kind k negated => f.inClass k d != negated

def Flags.inSet (f : Flags) (negated : Bool) (items : List SetItem) (d : CodePoint) : Bool :=
  items.any (f.inItem d) != negated

end SchemaTransfer.Regex
