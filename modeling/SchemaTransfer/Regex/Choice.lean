import SchemaTransfer.Regex.Pattern

/-!
# Alternatives

What all alternatives begin with stands in front of the choice only once, and alternatives of one code
point each make a character set.
-/
namespace SchemaTransfer.Regex

/-- Whether two parts are plainly the same. Parts that hold other patterns never are. -/
def Pattern.isSame : Pattern → Pattern → Bool
  | .literal c, .literal d => c = d
  | .notLiteral c, .notLiteral d => c = d
  | .any, .any => true
  | .set m items, .set n others => m = n && items = others
  | .anchor a, .anchor b => a = b
  | .backreference m, .backreference n => m = n
  | _, _ => false

/-- What is left of branches that all begin with `p`. -/
def withoutFront? (p : Pattern) : List (List Pattern) → Option (List (List Pattern))
  | [] => some []
  | [] :: _ => none
  | (q :: rest) :: branches =>
    if p.isSame q then (withoutFront? p branches).map (rest :: ·) else none

/-- The parts that all branches begin with, and what is left of the branches, the first of which is
given apart. -/
def shareFront : List Pattern → List (List Pattern) → List Pattern × List (List Pattern)
  | [], branches => ([], [] :: branches)
  | p :: rest, branches =>
    match withoutFront? p branches with
    | none => ([], (p :: rest) :: branches)
    | some branches =>
      let (front, branches) := shareFront rest branches
      (p :: front, branches)

/-- The items of the set that branches of one code point each make. -/
def setOf? : List (List Pattern) → Option (List SetItem)
  | [] => some []
  | [.literal c] :: branches => (setOf? branches).map (.one c :: ·)
  | [.set false items] :: branches => (setOf? branches).map (items ++ ·)
  | _ => none

def Pattern.ofBranches : List (List Pattern) → Pattern
  | [] => .sequence []
  | [parts] => .sequence parts
  | first :: others =>
    let (front, branches) := shareFront first others
    let choice :=
      match setOf? branches with
      | some items => .set false items.eraseDups
      | none => .choice (branches.map .sequence)
    .sequence (front ++ [choice])

/-- A group that neither captures nor switches flags is no more than its parts. -/
def Pattern.unpacked : Pattern → List Pattern
  | .group none on off (.sequence parts) =>
    if on = .none ∧ off = .none then parts else [.group none on off (.sequence parts)]
  | p => [p]

end SchemaTransfer.Regex
