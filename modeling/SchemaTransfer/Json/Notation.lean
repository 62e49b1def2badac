import SchemaTransfer.Json.Value
import SchemaTransfer.Double.Layout
import SchemaTransfer.Text.Quoted

/-!
# Values in messages

Messages show a value with quoted strings, words with a capital for null and the truth values, and
lower-case words for the doubles that are no numbers.
-/
namespace SchemaTransfer.Json

def shownDouble : Double → Text
  | .nan => "nan"
  | .inf negative => if negative then "-inf" else "inf"
  | .finite negative rank => Double.finiteText negative rank

mutual

def shown : Json → Text
  | .null => "None"
  | .bool b => if b then "True" else "False"
  | .int i => Text.ofInt i
  | .double d => shownDouble d
  | .string t => t.quoted
  | .array [] => "[]"
  | .array (v :: rest) => "[" ++ shown v ++ shownItems rest ++ "]"
  | .object [] => "\x7b\x7d"
  | .object ((k, v) :: rest) =>
    "\x7b" ++ k.quoted ++ ": " ++ shown v ++ shownMembers rest ++ "\x7d"

def shownItems : List Json → Text
  | [] => []
  | v :: rest => ", " ++ shown v ++ shownItems rest

def shownMembers : List (Text × Json) → Text
  | [] => []
  | (k, v) :: rest => ", " ++ k.quoted ++ ": " ++ shown v ++ shownMembers rest

end

end SchemaTransfer.Json
