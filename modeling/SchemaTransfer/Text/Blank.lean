import SchemaTransfer.Text.CodePoint

/-!
# Blank space

The code points that count as blank: those of bidirectional class B, S or WS and the spaces of category
Zs.
-/
namespace SchemaTransfer

def blankRanges : Ranges :=
  [(9, 13), (28, 32), (133, 133), (160, 160), (5760, 5760), (8192, 8202), (8232, 8233),
   (8239, 8239), (8287, 8287), (12288, 12288)]

namespace CodePoint

def isBlank (c : CodePoint) : Bool := blankRanges.has c

/-- White space: what is blank, without the four separators 1C to 1F. -/
def isWhiteSpace (c : CodePoint) : Bool := c.isBlank && !(0x1C ≤ c.val && c.val ≤ 0x1F)

/-- Blank among the first 128 code points, without the four separators 1C to 1F. -/
def isAsciiBlank (c : CodePoint) : Bool := c.val = 0x20 || (9 ≤ c.val && c.val ≤ 13)

end CodePoint

end SchemaTransfer
