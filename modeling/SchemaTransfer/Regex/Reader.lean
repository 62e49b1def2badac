import SchemaTransfer.Regex.Fault
import SchemaTransfer.Text.Identifier
import SchemaTransfer.Dict

/-!
# Reading regular expressions token by token

A token is one code point or a backslash with the code point after it. One token is always held in
advance, so a backslash at the very end is noticed as soon as the token before it is taken.
-/
namespace SchemaTransfer.Regex

/-- How far a pattern has been read, and what is known of its flags and groups. -/
structure Reading where
  pattern : Text
  /-- The token at hand; empty at the end of the pattern. -/
  token : Text
  rest : Text
  /-- The place behind the token at hand. -/
  index : Nat
  flags : Flags
  /-- The widths of the groups opened so far; an open group has none yet. -/
  groups : List (Option Width)
  names : List (Text × Nat)
  /-- Inside a look-behind, the number of groups there were in front of it, counting the whole
  match. -/
  groupsBeforeLook : Option Nat
  /-- The groups that conditions ask for, with the places where they do. -/
  conditions : List (Nat × Nat)

abbrev Reader := StateT Reading (Except Fault)

namespace Reader

/-- The place of the token at hand. -/
def place : Reader Nat := do
  let r ← get
  return r.index - r.token.length

def complainAt (complaint : Complaint) (offset : Nat) : Reader α := do
  let r ← get
  throw (.malformed complaint (some (Place.behind (r.pattern.take offset)))
    (r.pattern.contains (CodePoint.ofChar '\n')))

/-- Complains `back` code points in front of the token at hand. -/
def complain (complaint : Complaint) (back : Nat) : Reader α := do
  complainAt complaint ((← place) - back)

/-- Moves on to the next token. -/
def advance : Reader Unit := do
  let r ← get
  match r.rest with
  | [] => set { r with token := [] }
  | c :: rest =>
    if c = '\\' then
      match rest with
      | [] => complainAt .badEscapeAtEnd (r.pattern.length - 1)
      | d :: rest => set { r with token := [c, d], rest := rest, index := r.index + 2 }
    else set { r with token := [c], rest := rest, index := r.index + 1 }

def token : Reader Text := return (← get).token

/-- Takes the token at hand. -/
def take : Reader Text := do
  let t ← token
  advance
  return t

/-- Takes the token at hand if it is the code point `c`. -/
def accept (c : CodePoint) : Reader Bool := do
  if (← token) = [c] then
    advance
    return true
  else return false

/-- Takes at most `count` single code points of the class `p`. -/
def takeWhile (p : CodePoint → Bool) : (count : Nat) → Reader Text
  | 0 => return []
  | count + 1 => do
    match ← token with
    | [c] =>
      if p c then
        advance
        return c :: (← takeWhile p count)
      else return []
    | _ => return []

/-- Takes tokens up to `terminator`, which is taken but no part of the result. -/
def takeUntil (terminator : CodePoint) (what : Text) : (fuel : Nat) → (done : Text) → Reader Text
  | 0, done => return done
  | fuel + 1, done => do
    let t ← take
    if t.isEmpty then
      if done.isEmpty then complain (.missingName what) 0
      else complain (.unterminatedName terminator) done.length
    else if t = [terminator] then
      if done.isEmpty then complain (.missingName what) 1 else return done
    else takeUntil terminator what fuel (done ++ t)

/-- The text up to `terminator`. -/
def name (terminator : CodePoint) (what : Text) : Reader Text := do
  takeUntil terminator what ((← get).pattern.length + 1) []

/-- The names of groups are identifiers. -/
def checkName (t : Text) : Reader Unit := do
  if !t.isIdentifier then complain (.badNameCharacter t) (t.length + 1)

/-! ## Groups -/

/-- The number of groups so far, counting the whole match as the first. -/
def groupCount : Reader Nat := return (← get).groups.length + 1

/-- Whether the group exists and is closed. -/
def isClosed (index : Nat) : Reader Bool := do
  return ((← get).groups[index - 1]?.bind id).isSome

/-- Inside a look-behind only groups closed before it may be referred to. -/
def checkInLook (index : Nat) : Reader Unit := do
  match (← get).groupsBeforeLook with
  | none => return
  | some count =>
    if !(← isClosed index) then complain .openGroup 0
    if count ≤ index then complain .laterGroupInLook 0

def openGroup (groupName : Option Text) : Reader Nat := do
  let index ← groupCount
  modify fun r => { r with groups := r.groups ++ [none] }
  match groupName with
  | none => return index
  | some t =>
    match Entries.get? t (← get).names with
    | some earlier => complain (.redefinedName t index earlier) (t.length + 1)
    | none =>
      modify fun r => { r with names := r.names ++ [(t, index)] }
      return index

def closeGroup (index : Nat) (body : Pattern) : Reader Unit :=
  modify fun r => { r with groups := r.groups.set (index - 1) (some (body.width r.groups).capped) }

def lookBack (negated : Bool) (body : Pattern) : Reader Pattern := do
  return .look (some (body.width (← get).groups).capped) negated body

end Reader

end SchemaTransfer.Regex
