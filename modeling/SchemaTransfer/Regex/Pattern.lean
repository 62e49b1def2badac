import SchemaTransfer.Text.CodePoint

/-!
# Patterns of regular expressions
-/
namespace SchemaTransfer.Regex

/-- What the letters of an inline flag group switch. -/
structure Flags where
  ignoreCase : Bool := false
  multiline : Bool := false
  dotAll : Bool := false
  verbose : Bool := false
  ascii : Bool := false
  unicode : Bool := false
  template : Bool := false
deriving DecidableEq

namespace Flags

def none : Flags := {}

def union (a b : Flags) : Flags where
  ignoreCase := a.ignoreCase || b.ignoreCase
  multiline := a.multiline || b.multiline
  dotAll := a.dotAll || b.dotAll
  verbose := a.verbose || b.verbose
  ascii := a.ascii || b.ascii
  unicode := a.unicode || b.unicode
  template := a.template || b.template

def without (a b : Flags) : Flags where
  ignoreCase := a.ignoreCase && !b.ignoreCase
  multiline := a.multiline && !b.multiline
  dotAll := a.dotAll && !b.dotAll
  verbose := a.verbose && !b.verbose
  ascii := a.ascii && !b.ascii
  unicode := a.unicode && !b.unicode
  template := a.template && !b.template

def meet (a b : Flags) : Bool :=
  (a.ignoreCase && b.ignoreCase) || (a.multiline && b.multiline) || (a.dotAll && b.dotAll) ||
    (a.verbose && b.verbose) || (a.ascii && b.ascii) || (a.unicode && b.unicode) ||
    (a.template && b.template)

/-- The flags inside a group that switches `on` and `off`. The choice between ASCII and all scripts
is made anew where the group makes one. -/
def inside (outer on off : Flags) : Flags :=
  let base := if on.ascii || on.unicode then
    outer.without { ascii := true, unicode := true } else outer
  (base.union on).without off

end Flags

inductive CharClass
  | digit
  | blank
  | word
deriving DecidableEq

/-- A part of a character set. -/
inductive SetItem
  | one (c : CodePoint)
  | range (low high : CodePoint)
  | kind (k : CharClass) (negated : Bool)
deriving DecidableEq

/-- Conditions on a place. -/
inductive Anchor
  | lineStart
  | lineEnd
  | textStart
  | textEnd
  | boundary
  | noBoundary
deriving DecidableEq

/-- How a repetition chooses its count: as many rounds as possible first, as few as possible first,
or as many as possible and no other count. -/
inductive Mode
  | greedy
  | lazy
  | possessive
deriving DecidableEq

/-- The least and the greatest count of code points that a pattern takes up. -/
structure Width where
  least : Nat
  greatest : Nat
deriving DecidableEq

namespace Width

/-- The greatest width there is; it stands for every width from there on. -/
def limit : Nat := 0xFFFFFFFF

/-- The least width stays below the limit, so what may be wider never has one width only. -/
def capped (w : Width) : Width := ⟨min w.least (limit - 1), min w.greatest limit⟩

def add (a b : Width) : Width := ⟨a.least + b.least, a.greatest + b.greatest⟩

def either (a b : Width) : Width := ⟨min a.least b.least, max a.greatest b.greatest⟩

def isFixed (w : Width) : Bool := w.least = w.greatest

end Width

inductive Pattern
  | literal (c : CodePoint)
  | notLiteral (c : CodePoint)
  | any
  | set (negated : Bool) (items : List SetItem)
  | anchor (a : Anchor)
  | sequence (parts : List Pattern)
  | choice (branches : List Pattern)
  | group (index : Option Nat) (on off : Flags) (body : Pattern)
  | atomic (body : Pattern)
  | repeated (mode : Mode) (least : Nat) (most : Option Nat) (body : Pattern)
  | backreference (index : Nat)
  /-- Looks ahead, or back over the width of the body. -/
  | look (back : Option Width) (negated : Bool) (body : Pattern)
  | conditional (index : Nat) (yes no : Pattern)

instance : Inhabited Pattern := ⟨.sequence []⟩

mutual

/-- The width of a pattern, `groups` holding the widths of the groups before it. -/
def Pattern.width (groups : List (Option Width)) : Pattern → Width
  | .literal _ | .notLiteral _ | .any | .set _ _ => ⟨1, 1⟩
  | .anchor _ | .look _ _ _ => ⟨0, 0⟩
  | .sequence parts => (Pattern.sumWidth groups parts).capped
  | .choice branches => Pattern.eitherWidth groups branches
  | .group _ _ _ body => body.width groups
  | .atomic body => body.width groups
  | .repeated _ least most body =>
    let w := body.width groups
    match most with
    | some n => ⟨w.least * least, w.greatest * n⟩
    | none => ⟨w.least * least, if w.greatest = 0 then 0 else Width.limit⟩
  | .backreference index => ((groups[index - 1]?).bind id).getD ⟨0, 0⟩
  | .conditional _ yes no => (yes.width groups).either (no.width groups)

def Pattern.sumWidth (groups : List (Option Width)) : List Pattern → Width
  | [] => ⟨0, 0⟩
  | p :: rest => (p.width groups).add (Pattern.sumWidth groups rest)

def Pattern.eitherWidth (groups : List (Option Width)) : List Pattern → Width
  | [] => ⟨Width.limit - 1, 0⟩
  | p :: rest => (p.width groups).either (Pattern.eitherWidth groups rest)

end

mutual

/-- The groups that a pattern refers back to. -/
def Pattern.references : Pattern → List Nat
  | .backreference index => [index]
  | .conditional index yes no => index :: (yes.references ++ no.references)
  | .sequence parts => Pattern.allReferences parts
  | .choice branches => Pattern.allReferences branches
  | .group _ _ _ body | .atomic body | .repeated _ _ _ body | .look _ _ body => body.references
  | .literal _ | .notLiteral _ | .any | .set _ _ | .anchor _ => []

def Pattern.allReferences : List Pattern → List Nat
  | [] => []
  | p :: rest => p.references ++ Pattern.allReferences rest

end

end SchemaTransfer.Regex
