import SchemaTransfer.Text.Printable

/-!
# Quoted text

How messages quote a text: in single quotes, or in double quotes if it holds a single quote and no
double one, with everything that would not print written as an escape.
-/
namespace SchemaTransfer

/-- One code point inside quotes `q`. -/
def CodePoint.quoted (q c : CodePoint) : Text :=
  if c = q ∨ c = '\\' then ['\\', c]
  else if c = '\t' then "\\t"
  else if c = '\n' then "\\n"
  else if c = '\r' then "\\r"
  else if c.isPrintable then [c]
  else if c.val < 0x100 then "\\x" ++ Text.hex 2 c.val
  else if c.val < 0x10000 then "\\u" ++ Text.hex 4 c.val
  else "\\U" ++ Text.hex 8 c.val

namespace Text

def quoteMark (t : Text) : CodePoint :=
  if t.contains (CodePoint.ofChar '\'') ∧ ¬ t.contains (CodePoint.ofChar '"') then '"' else '\''

def quoted (t : Text) : Text :=
  let q := quoteMark t
  q :: t.flatMap (CodePoint.quoted q) ++ [q]

end Text

end SchemaTransfer
