import SchemaTransfer.Text.Utf8

/-!
# File names

A file system knows names as byte strings. A name in text stands for its UTF-8 sequences, and a
surrogate from DC80 to DCFF for one byte that belongs to no sequence, so every byte string is a name
that text can give.
-/
namespace SchemaTransfer

abbrev FileName := Bytes

namespace FileName

/-- Whether a code point stands for a byte that belongs to no sequence. -/
def isStray (c : CodePoint) : Bool := 0xDC80 ≤ c.val && c.val ≤ 0xDCFF

def encodeOne (c : CodePoint) : Bytes :=
  if isStray c then [UInt8.ofNat (c.val - 0xDC00)] else Utf8.encodeOne c

def ofText (t : Text) : FileName := t.flatMap encodeOne

def toText (name : FileName) : Text :=
  Utf8.decodeWith (fun b => [.ofNat (0xDC00 + b.toNat)]) name

end FileName

/-- Surrogates in a row that have no bytes: the first of them, its place and their count. -/
structure Unencodable where
  first : CodePoint
  start : Nat
  length : Nat
deriving DecidableEq

namespace Unencodable

def message (u : Unencodable) : Text :=
  "'utf-8' codec can't encode " ++
    (if u.length = 1 then
      "character '\\u" ++ Text.hex 4 u.first.val ++ "' in position " ++ Text.ofNat u.start
    else
      "characters in position " ++ Text.ofNat u.start ++ "-" ++
        Text.ofNat (u.start + u.length - 1)) ++
    ": surrogates not allowed"

/-- The first surrogates that have no bytes in a text whose first code point stands at `place`. -/
def find? (place : Nat) : Text → Option Unencodable
  | [] => none
  | c :: rest =>
    if c.isSurrogate && !FileName.isStray c then
      some ⟨c, place, 1 + (rest.takeWhile CodePoint.isSurrogate).length⟩
    else find? (place + 1) rest

end Unencodable

end SchemaTransfer
