import SchemaTransfer.Json.Reader

/-!
# How deep a text nests

A reader that goes into arrays and objects one inside the other has room for so many of them. What
opens when there is no room left ends the reading there; a fault of the text that comes first ends
it first.
-/
namespace SchemaTransfer.Json

inductive Container
  | array
  | object
deriving DecidableEq

def Container.name : Container → Text
  | array => "array"
  | object => "object"

/-- Where a point of a text lies: between strings, inside one, or behind a backslash in one. -/
inductive Position
  | outside
  | quoted
  | escaped

/-- What opens first inside `room` arrays and objects, `level` being the number of those that are
open already. -/
def overflowFrom? (room : Nat) : (level : Nat) → Position → Text → Option Container
  | _, _, [] => none
  | level, .escaped, _ :: rest => overflowFrom? room level .quoted rest
  | level, .quoted, c :: rest =>
    overflowFrom? room level
      (if c = '"' then .outside else if c = '\\' then .escaped else .quoted) rest
  | level, .outside, c :: rest =>
    if c = '"' then overflowFrom? room level .quoted rest
    else if c = '[' then
      if level < room then overflowFrom? room (level + 1) .outside rest else some .array
    else if c = '{' then
      if level < room then overflowFrom? room (level + 1) .outside rest else some .object
    else if c = ']' ∨ c = '}' then overflowFrom? room (level - 1) .outside rest
    else overflowFrom? room level .outside rest

/-- The part of a text in front of the place where reading stops. -/
def traversed (t : Text) : Text :=
  match document t with
  | .ok _ => t
  | .error stop => t.take (t.length - stop.rest.length)

/-- What there is no room for in reading a text, if anything. -/
def overflow? (room : Nat) (t : Text) : Option Container :=
  overflowFrom? room 0 .outside (traversed t)

end SchemaTransfer.Json
