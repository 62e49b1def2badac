import SchemaTransfer.Json.Value

/-!
# Equality of configurations

Two values are alike if they stand for the same value: whole numbers, doubles and truth values are
compared as numbers, and objects regardless of the order of their members.
-/
namespace SchemaTransfer.Json

/-- The number that a value stands for, where that is a whole number. -/
def wholeValue? : Json → Option Int
  | .bool b => some (if b then 1 else 0)
  | .int i => some i
  | .double d => d.whole?
  | _ => none

def alikeScalars : Json → Json → Bool
  | .null, .null => true
  | .string s, .string t => s = t
  | .double a, .double b => a.same b
  | a, b =>
    match a.wholeValue?, b.wholeValue? with
    | some i, some j => i = j
    | _, _ => false

mutual

def alike : Json → Json → Bool
  | .array items, w =>
    match w with
    | .array items' => alikeItems items items'
    | _ => false
  | .object members, w =>
    match w with
    | .object members' => members.length = members'.length && alikeMembers members members'
    | _ => false
  | v, w => alikeScalars v w

def alikeItems : List Json → List Json → Bool
  | [], [] => true
  | v :: rest, w :: rest' => alike v w && alikeItems rest rest'
  | _, _ => false

/-- Whether every member of the first object has one like it in the second. -/
def alikeMembers : List (Text × Json) → List (Text × Json) → Bool
  | [], _ => true
  | (k, v) :: rest, others =>
    (match Entries.get? k others with
      | some w => alike v w
      | none => false) && alikeMembers rest others

end

end SchemaTransfer.Json
