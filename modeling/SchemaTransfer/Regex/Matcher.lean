import SchemaTransfer.Regex.Parser
import SchemaTransfer.Regex.Search
import SchemaTransfer.Regex.Single

/-!
# Matching regular expressions

A pattern is matched by trying its ways in order: the earlier alternative before the later one, and
of a repetition more rounds before fewer, or fewer before more if it is lazy.
-/
namespace SchemaTransfer.Regex

/-! ## Places -/

/-- Whether a word begins or ends at a place; in the empty text no place is either. -/
def isBoundary (f : Flags) (text : Array CodePoint) (place : Nat) : Bool :=
  let before := place != 0 && (text[place - 1]?).any (f.inClass .word)
  let after := (text[place]?).any (f.inClass .word)
  before != after

def holdsAt (f : Flags) (text : Array CodePoint) (place : Nat) : Anchor → Bool
  | .textStart => place = 0
  | .textEnd => place = text.size
  | .lineStart =>
    place = 0 || (f.multiline && text[place - 1]? = some (CodePoint.ofChar '\n'))
  | .lineEnd =>
    place = text.size ||
      ((f.multiline || place + 1 = text.size) && text[place]? = some (CodePoint.ofChar '\n'))
  | .boundary => text.size ≠ 0 && isBoundary f text place
  | .noBoundary => text.size ≠ 0 && !isBoundary f text place

namespace Step

/-- Takes up the next code point, if that satisfies `p`. -/
def one (text : Array CodePoint) (p : CodePoint → Bool) : Step := fun next s other =>
  match text[s.place]? with
  | some c => if p c then next { s with place := s.place + 1 } other else other
  | none => other

/-- Goes on only if `holds`. -/
def guard (holds : Bool) : Step := fun next s other => if holds then next s other else other

/-- Remembers what a match takes up as the capture of a group. -/
def capturing (step : Step) (index : Nat) : Step := fun next s other =>
  step (fun e other => next { e with captures := Entries.put index (s.place, e.place) e.captures }
    other) s other

/-- Whether the code points from `i` on are matched by those from `j` on, for `count` of them. -/
def isSameText (f : Flags) (text : Array CodePoint) (i j : Nat) : (count : Nat) → Bool
  | 0 => true
  | count + 1 =>
    (match text[i]?, text[j]? with
      | some c, some d => if f.ignoreCase then f.lower c = f.lower d else c = d
      | _, _ => false) && isSameText f text (i + 1) (j + 1) count

/-- A second occurrence of what a group has taken up. -/
def again (f : Flags) (text : Array CodePoint) (index : Nat) : Step := fun next s other =>
  match Entries.get? index s.captures with
  | none => other
  | some (start, stop) =>
    if isSameText f text start s.place (stop - start) then
      next { s with place := s.place + (stop - start) } other
    else other

/-- Looks from a place `back` code points in front of the spot, and goes on from the spot. -/
def look (step : Step) (back : Nat) (negated : Bool) : Step := fun next s other =>
  let seen := if back ≤ s.place then step.first? { s with place := s.place - back } else none
  match seen with
  | none => if negated then next s other else other
  | some e => if negated then other else next { s with captures := e.captures } other

end Step

/-! ## Patterns -/

mutual

/-- How a pattern is matched. Only groups in `wanted` are remembered. -/
def Pattern.step (text : Array CodePoint) (wanted : List Nat) (f : Flags) : Pattern → Step
  | .literal c => .one text (f.sameLetter c)
  | .notLiteral c => .one text fun d => !f.sameLetter c d
  | .any => .one text fun d => f.dotAll || d ≠ CodePoint.ofChar '\n'
  | .set negated items => .one text (f.inSet negated items)
  | .anchor a => fun next s other => Step.guard (holdsAt f text s.place a) next s other
  | .sequence parts => Pattern.sequenceStep text wanted f parts
  | .choice branches => Pattern.choiceStep text wanted f branches
  | .group none on off body => Pattern.step text wanted (f.inside on off) body
  | .group (some index) on off body =>
    let step := Pattern.step text wanted (f.inside on off) body
    if wanted.contains index then step.capturing index else step
  | .atomic body => (Pattern.step text wanted f body).atomic
  | .repeated mode least most body =>
    (Pattern.step text wanted f body).repetition mode least most text.size
  | .backreference index => .again f text index
  | .look back negated body =>
    (Pattern.step text wanted f body).look (back.elim 0 Width.least) negated
  | .conditional index yes no => fun next s other =>
    if (Entries.get? index s.captures).isSome then Pattern.step text wanted f yes next s other
    else Pattern.step text wanted f no next s other

def Pattern.sequenceStep (text : Array CodePoint) (wanted : List Nat) (f : Flags) :
    List Pattern → Step
  | [] => id
  | p :: rest => fun next =>
    Pattern.step text wanted f p (Pattern.sequenceStep text wanted f rest next)

def Pattern.choiceStep (text : Array CodePoint) (wanted : List Nat) (f : Flags) :
    List Pattern → Step
  | [] => fun _ _ other => other
  | p :: rest => fun next s other =>
    Pattern.step text wanted f p next s
      (.goOn fun () => Pattern.choiceStep text wanted f rest next s other)

end

end Regex

/-- A regular expression that has been read, with the flags set for the whole of it. -/
structure Regex where
  pattern : Regex.Pattern
  flags : Regex.Flags
  /-- No match takes up fewer code points. -/
  least : Nat

namespace Regex

def compile (t : Text) : Except Fault Regex :=
  match Reader.wholePattern.run ⟨t, [], t, 0, .none, [], [], none, []⟩ with
  | .ok (pattern, reading) => .ok ⟨pattern, reading.flags, (pattern.width reading.groups).least⟩
  | .error fault => .error fault

/-- Whether a match from `place` on ends at a place that satisfies `p`. -/
def endsWhere (r : Regex) (t : Array CodePoint) (place : Nat) (p : Nat → Bool) : Bool :=
  r.least ≤ t.size - place &&
    (r.pattern.step t r.pattern.references r.flags
      (fun e other => if p e.place then .found e else other) ⟨place, []⟩ .failed).result?.isSome

/-- Whether the expression matches the text as a whole. -/
def matchesWhole (r : Regex) (t : Text) : Bool :=
  r.endsWhere t.toArray 0 fun place => place = t.length

/-- Whether the expression matches some part of the text. -/
def matchesSomewhere (r : Regex) (t : Text) : Bool :=
  (List.range (t.length + 1)).any fun place => r.endsWhere t.toArray place fun _ => true

end Regex

end SchemaTransfer
