import SchemaTransfer.Text.Numeral

/-!
# Places in a text
-/
namespace SchemaTransfer

/-- A place in a text: the code points before it, its line, counted from one and ended by line feeds
alone, and its column, counted from one. -/
structure Place where
  offset : Nat
  line : Nat
  column : Nat
deriving DecidableEq

/-- The place behind the text `before`. -/
def Place.behind (before : Text) : Place where
  offset := before.length
  line := before.count (CodePoint.ofChar '\n') + 1
  column := (before.reverse.takeWhile (· ≠ CodePoint.ofChar '\n')).length + 1

end SchemaTransfer
