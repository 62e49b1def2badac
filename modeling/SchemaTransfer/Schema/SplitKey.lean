import SchemaTransfer.Failure
import SchemaTransfer.Json.Digits

/-!
# Split keys in the interchange format

A row key that is UTF-8 is written as a string. Any other key is written as the list of its bytes,
those from 80 to FF as negative numbers; read, a byte may have either sign.
-/
namespace SchemaTransfer.SplitKey

/-- A byte as a number from -128 to 127. -/
def signed (b : UInt8) : Int := if 127 < b.toNat then (b.toNat : Int) - 256 else b.toNat

def encode (key : Bytes) : Json :=
  match Utf8.decode key with
  | .ok t => .string t
  | .error _ => .array (key.map fun b => .int (signed b))

/-- The byte that a whole number from -128 to 255 stands for. -/
def byte? : Json → Option UInt8
  | .int i => if -128 ≤ i ∧ i ≤ 255 then some (UInt8.ofNat (i % 256).toNat) else none
  | _ => none

/-- Why a value that is neither a string nor a list is no key. The complaint shows the value, and a
whole number in it that is too long to be shown is what is complained of then. -/
def unsupported (v : Json) : Failure :=
  if v.Everywhere Json.DigitsFit then .decode (.unsupportedSplit v) else .longInteger

def decode : Json → Except Failure Bytes
  | .string t =>
    match Utf8.encode? t with
    | some key => .ok key
    | none => .error (.decode (.splitNotUtf8 t))
  | .array items =>
    match items.mapM byte? with
    | some key => .ok key
    | none => .error (.decode .splitNotBytes)
  | v => .error (unsupported v)

/-- The keys of a list, up to the first that cannot be decoded. -/
def decodeAll : List Json → Except Failure (List Bytes)
  | [] => .ok []
  | v :: rest =>
    match decode v with
    | .error e => .error e
    | .ok key => (decodeAll rest).map (key :: ·)

end SchemaTransfer.SplitKey
