import SchemaTransfer.Json.Value
import SchemaTransfer.Double.Layout

/-!
# Writing JSON

The writer uses printable ASCII alone. A value is written on one line, or over several lines with
every level of nesting indented further; empty arrays and objects take no line of their own.
-/
namespace SchemaTransfer.Json

/-- A code unit of UTF-16 as an escape. -/
def unitEscape (n : Nat) : Text := "\\u" ++ Text.hex 4 n

/-- One code point inside a string. -/
def escaped (c : CodePoint) : Text :=
  if c = '"' ∨ c = '\\' then ['\\', c]
  else if c = '\n' then "\\n"
  else if c = '\r' then "\\r"
  else if c = '\t' then "\\t"
  else if c.val = 8 then "\\b"
  else if c.val = 12 then "\\f"
  else if 0x20 ≤ c.val ∧ c.val ≤ 0x7E then [c]
  else if c.val < 0x10000 then unitEscape c.val
  else
    unitEscape (0xD800 + (c.val - 0x10000) / 0x400) ++
      unitEscape (0xDC00 + (c.val - 0x10000) % 0x400)

def stringText (t : Text) : Text := "\"" ++ t.flatMap escaped ++ "\""

def doubleText : Double → Text
  | .nan => "NaN"
  | .inf negative => if negative then "-Infinity" else "Infinity"
  | .finite negative rank => Double.finiteText negative rank

/-- How values are laid out: on one line, or with lines indented by a number of spaces for each
level. -/
inductive Layout
  | line
  | indented (width : Nat)
deriving DecidableEq

namespace Layout

/-- What stands between a bracket and what is inside it, `level` being that of the text after it. -/
def gap : Layout → (level : Nat) → Text
  | .line, _ => []
  | .indented width, level => "\n" ++ List.replicate (width * level) (CodePoint.ofChar ' ')

/-- What stands between two neighbours. -/
def separator : Layout → (level : Nat) → Text
  | .line, _ => ", "
  | .indented width, level => "," ++ gap (.indented width) level

end Layout

mutual

def render (layout : Layout) (level : Nat) : Json → Text
  | .null => "null"
  | .bool b => if b then "true" else "false"
  | .int i => Text.ofInt i
  | .double d => doubleText d
  | .string t => stringText t
  | .array [] => "[]"
  | .array (v :: rest) =>
    "[" ++ layout.gap (level + 1) ++ render layout (level + 1) v ++
      renderItems layout (level + 1) rest ++ layout.gap level ++ "]"
  | .object [] => "\x7b\x7d"
  | .object ((k, v) :: rest) =>
    "\x7b" ++ layout.gap (level + 1) ++ stringText k ++ ": " ++ render layout (level + 1) v ++
      renderMembers layout (level + 1) rest ++ layout.gap level ++ "\x7d"

/-- The elements of an array that follow its first one. -/
def renderItems (layout : Layout) (level : Nat) : List Json → Text
  | [] => []
  | v :: rest =>
    layout.separator level ++ render layout level v ++ renderItems layout level rest

/-- The members of an object that follow its first one. -/
def renderMembers (layout : Layout) (level : Nat) : List (Text × Json) → Text
  | [] => []
  | (k, v) :: rest =>
    layout.separator level ++ stringText k ++ ": " ++ render layout level v ++
      renderMembers layout level rest

end

/-- A value on one line. -/
def compact (v : Json) : Text := render .line 0 v

/-- A value over several lines, two spaces for each level. -/
def pretty (v : Json) : Text := render (.indented 2) 0 v

/-! ## Members in order of their keys -/

/-- A member put in front of the first one with a greater key. -/
def insertSorted (m : Text × Json) : List (Text × Json) → List (Text × Json)
  | [] => [m]
  | n :: rest => if Text.precedes m.1 n.1 then m :: n :: rest else n :: insertSorted m rest

mutual

/-- The value with the members of every object, at any depth, in order of their keys. -/
def sortKeys : Json → Json
  | .array items => .array (sortItems items)
  | .object members => .object (sortMembers members)
  | v => v

def sortItems : List Json → List Json
  | [] => []
  | v :: rest => sortKeys v :: sortItems rest

def sortMembers : List (Text × Json) → List (Text × Json)
  | [] => []
  | (k, v) :: rest => insertSorted (k, sortKeys v) (sortMembers rest)

end

end SchemaTransfer.Json
