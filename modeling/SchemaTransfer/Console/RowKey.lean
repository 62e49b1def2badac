import SchemaTransfer.Text.Utf8

/-!
# Row keys on the screen

A row key is shown as text, a byte that belongs to no character as an escape, and is cut to a width
that fits a column.
-/
namespace SchemaTransfer

namespace Text

/-- The first `limit` code points. A negative limit takes so many away from the end instead. -/
def upTo (limit : Int) (t : Text) : Text :=
  if 0 ≤ limit then t.take limit.toNat else t.take (t.length - (-limit).toNat)

def ellipsis : Text := "..."

/-- A text that is too long, cut off with three dots at its end if there is room for them. -/
def clip (t : Text) (limit : Int) : Text :=
  if limit ≤ 3 ∨ (t.length : Int) ≤ limit then t.upTo limit else t.upTo (limit - 3) ++ ellipsis

theorem upTo_eq_take (n : Nat) (t : Text) : t.upTo n = t.take n := by
  simp [upTo]

end Text

/-- The width of a row key. -/
def rowKeyWidth : Nat := 32

def rowKeyText (key : Bytes) : Text := (Utf8.decodeEscaped key).clip rowKeyWidth

end SchemaTransfer
