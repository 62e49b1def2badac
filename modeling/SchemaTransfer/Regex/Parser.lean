import SchemaTransfer.Regex.CharSet
import SchemaTransfer.Regex.Check
import SchemaTransfer.Regex.Choice
import SchemaTransfer.Regex.InlineFlags
import SchemaTransfer.Regex.Quantifier

/-!
# Regular expressions

Groups, sequences and alternatives, read up to the end of the pattern.
-/
namespace SchemaTransfer.Regex.Reader

/-- Takes the rest of a comment in a pattern, up to its closing parenthesis. -/
def groupComment (start : Nat) : (fuel : Nat) → Reader Unit
  | 0 => return
  | fuel + 1 => do
    if (← token).isEmpty then complainAt .unterminatedComment start
    if (← take) = ")" then return else groupComment start fuel

/-- Takes the rest of a line. -/
def lineComment : (fuel : Nat) → Reader Unit
  | 0 => return
  | fuel + 1 => do
    let t ← take
    if t.isEmpty ∨ t = "\n" then return else lineComment fuel

/-- What an opening parenthesis begins. -/
inductive Opening
  | capture (groupName : Option Text)
  | plain (on off : Flags)
  | atomic
  | look (back negated : Bool)
  | condition (index : Nat)
  /-- Nothing that encloses anything: a whole part of the pattern, if any. -/
  | finished (part : Option Pattern)
  | globalFlags

/-- A reference to a group by its name. -/
def nameReference : Reader Opening := do
  let t ← name ')' "group name"
  checkName t
  match Entries.get? t (← get).names with
  | none => complain (.unknownName t) (t.length + 1)
  | some index =>
    if !(← isClosed index) then complain .openGroup (t.length + 1)
    checkInLook index
    return .finished (some (.backreference index))

/-- The group that a condition asks for. -/
def conditionGroup : Reader Opening := do
  let t ← name ')' "group name"
  let index ←
    if t.isIdentifier then
      match Entries.get? t (← get).names with
      | none => complain (.unknownName t) (t.length + 1)
      | some index => pure index
    else
      match Text.wholeNumber? t with
      | some (.ofNat index) =>
        if index = 0 then complain .badGroupNumber (t.length + 1)
        if 1073741823 ≤ index then complain (.invalidReference index) (t.length + 1)
        let here ← place
        modify fun r => { r with conditions := r.conditions ++ [(index, here - t.length - 1)] }
        pure index
      | _ => complain (.badNameCharacter t) (t.length + 1)
  checkInLook index
  return .condition index

/-- What comes after an opening parenthesis at the place `start`. -/
def opening (start : Nat) : Reader Opening := do
  if !(← accept '?') then return .capture none
  let t ← take
  if t.isEmpty then complain .unexpectedEnd 0
  if t = "P" then
    if ← accept '<' then
      let groupName ← name '>' "group name"
      checkName groupName
      return .capture (some groupName)
    else if ← accept '=' then nameReference
    else
      let u ← take
      if u.isEmpty then complain .unexpectedEnd 0
      complain (.unknownExtension ("P" ++ u)) (u.length + 2)
  else if t = ":" then return .plain .none .none
  else if t = "#" then
    groupComment start ((← get).pattern.length + 1)
    return .finished none
  else if t = "=" then return .look false false
  else if t = "!" then return .look false true
  else if t = "<" then
    let u ← take
    if u.isEmpty then complain .unexpectedEnd 0
    if u = "=" then return .look true false
    else if u = "!" then return .look true true
    else complain (.unknownExtension ("<" ++ u)) (u.length + 2)
  else if t = "(" then conditionGroup
  else if t = ">" then return .atomic
  else if isFlag t ∨ t = "-" then
    match ← flags t with
    | none => return .globalFlags
    | some (on, off) => return .plain on off
  else complain (.unknownExtension t) (t.length + 1)

def closing (start : Nat) : Reader Unit := do
  if !(← accept ')') then complainAt .unterminatedGroup start

def isVerboseBlank (c : CodePoint) : Bool := c.isAsciiBlank

mutual

/-- Alternatives, up to a closing parenthesis or the end; those already read come in reverse. Flags
for the whole pattern may be set only in front of everything else, which `top` says is where this
begins. -/
def alternatives (verbose top : Bool) : (fuel : Nat) → (done : List (List Pattern)) → Reader Pattern
  | 0, _ => complain .unexpectedEnd 0
  | fuel + 1, done => do
    let parts ← sequence verbose (top && done.isEmpty) fuel []
    let done := parts :: done
    if ← accept '|' then
      let r ← get
      alternatives (if top then r.flags.verbose else verbose) top fuel done
    else return .ofBranches done.reverse

/-- A sequence, up to an alternative, a closing parenthesis or the end; the parts already read come
in reverse. -/
def sequence (verbose first : Bool) :
    (fuel : Nat) → (done : List Pattern) → Reader (List Pattern)
  | 0, _ => complain .unexpectedEnd 0
  | fuel + 1, done => do
    let t ← token
    if t.isEmpty ∨ t = "|" ∨ t = ")" then return done.reverse.flatMap Pattern.unpacked
    advance
    match t with
    | [c] =>
      if verbose ∧ isVerboseBlank c then sequence verbose first fuel done
      else if verbose ∧ c = '#' then do
        lineComment ((← get).pattern.length + 1)
        sequence verbose first fuel done
      else if c = '[' then do
        let p ← charSet
        sequence verbose first fuel (p :: done)
      else if c = '?' ∨ c = '*' ∨ c = '+' ∨ c = '{' then do
        let start := (← place) - 1
        match ← bounds c with
        | none => sequence verbose first fuel (.literal c :: done)
        | some (least, most) =>
          let done ← repeatLast start least most done
          sequence verbose first fuel done
      else if c = '.' then sequence verbose first fuel (.any :: done)
      else if c = '^' then sequence verbose first fuel (.anchor .lineStart :: done)
      else if c = '$' then sequence verbose first fuel (.anchor .lineEnd :: done)
      else if c = '(' then do
        let start := (← place) - 1
        match ← opening start with
        | .finished none => sequence verbose first fuel done
        | .finished (some p) => sequence verbose first fuel (p :: done)
        | .globalFlags => do
          if !first || !done.isEmpty then complainAt .flagsNotAtStart start
          sequence (← get).flags.verbose first fuel done
        | .capture groupName => do
          let index ← openGroup groupName
          let body ← alternatives verbose false fuel []
          closing start
          closeGroup index body
          sequence verbose first fuel (.group (some index) .none .none body :: done)
        | .plain on off => do
          let body ← alternatives ((verbose || on.verbose) && !off.verbose) false fuel []
          closing start
          sequence verbose first fuel (.group none on off body :: done)
        | .atomic => do
          let body ← alternatives verbose false fuel []
          closing start
          sequence verbose first fuel (.atomic body :: done)
        | .look false negated => do
          let body ← alternatives verbose false fuel []
          closing start
          sequence verbose first fuel (.look none negated body :: done)
        | .look true negated => do
          let outer := (← get).groupsBeforeLook
          let count ← groupCount
          modify fun r => { r with groupsBeforeLook := some (outer.getD count) }
          let body ← alternatives verbose false fuel []
          modify fun r => { r with groupsBeforeLook := outer }
          closing start
          let p ← lookBack negated body
          sequence verbose first fuel (p :: done)
        | .condition index => do
          let yes ← sequence verbose false fuel []
          let no ←
            if ← accept '|' then do
              let parts ← sequence verbose false fuel []
              if (← token) = "|" then complain .tooManyBranches 0
              pure parts
            else pure []
          closing start
          sequence verbose first fuel (.conditional index (.sequence yes) (.sequence no) :: done)
      else sequence verbose first fuel (.literal c :: done)
    | _ => do
      let p ← escape t
      sequence verbose first fuel (p :: done)

end

/-- A whole pattern. -/
def wholePattern : Reader Pattern := do
  advance
  let p ← alternatives false true (4 * (← get).pattern.length + 8) []
  let flags := (← get).flags
  if flags.ascii && flags.unicode then throw .asciiAndUnicode
  if !(← token).isEmpty then complain .unbalanced 0
  let count ← groupCount
  match (← get).conditions.find? fun c => count ≤ c.1 with
  | some (index, offset) => complainAt (.invalidReference index) offset
  | none => pure ()
  match p.fault? flags.template with
  | some complaint => throw (.malformed complaint none false)
  | none => return p

end SchemaTransfer.Regex.Reader
