import SchemaTransfer.Text.CodePoint
import SchemaTransfer.Double.Basic
import SchemaTransfer.Dict

/-!
# JSON values

Whole numbers are unbounded and kept apart from doubles. The members of an object stand in order;
an object that was read has no key twice.
-/
namespace SchemaTransfer

inductive Json
  | null
  | bool (b : Bool)
  | int (i : Int)
  | double (d : Double)
  | string (t : Text)
  | array (items : List Json)
  | object (members : List (Text × Json))

instance : Inhabited Json := ⟨.null⟩

namespace Json

/-- Values that count as missing where a default is at hand: null, false, zero and whatever is
empty. -/
def isMissing : Json → Bool
  | .null => true
  | .bool b => !b
  | .int i => i = 0
  | .double d => d.isZero
  | .string t => t.isEmpty
  | .array items => items.isEmpty
  | .object members => members.isEmpty

/-- The value of a member, null if there is none. -/
def member (key : Text) (members : List (Text × Json)) : Json :=
  (Entries.get? key members).getD .null

end Json

end SchemaTransfer
