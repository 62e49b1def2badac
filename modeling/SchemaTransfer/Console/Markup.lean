import SchemaTransfer.Run.World
import SchemaTransfer.Text.Blank

/-!
# How a console reads markup

A style is named in brackets; from there it applies until it is closed by name, or as the last one
that is open. What is in brackets is read so wherever it comes from, unless a backslash stands in
front of it. Nothing is shown of a text that closes what is not open. Styles that go by several names
count as different here, and links, handlers and pictographs are left out.
-/
namespace SchemaTransfer

namespace Markup

/-- What a tag begins with. -/
def beginsTag (c : CodePoint) : Bool :=
  (0x61 ≤ c.val && c.val ≤ 0x7A) || c = '#' || c = '/' || c = '@'

/-- What is in the brackets at the beginning of a text, if that is a tag. -/
def tag? : Text → Option Text
  | [] => none
  | bracket :: rest =>
    let content := rest.takeWhile fun (c : CodePoint) => c ≠ '[' && c ≠ ']'
    if bracket = '[' && content.head?.any beginsTag && rest[content.length]? = some ']' then
      some content
    else none

/-- A part of a marked-up text. -/
inductive Piece
  /-- What shows of so many characters. -/
  | plain (shown : Text) (length : Nat)
  | tag (content : Text)

/-- Of backslashes in front of a tag every other one shows, and if their number is odd the last one
makes the tag plain. -/
def backslashes (number : Nat) (content : Text) : Piece :=
  let shown := List.replicate (number / 2) (CodePoint.ofChar '\\')
  if number % 2 = 1 then .plain (shown ++ "[" ++ content ++ "]") (number + content.length + 2)
  else .plain shown number

/-- The first part of a text that begins with `c`. -/
def firstPiece (c : CodePoint) (rest : Text) : Piece :=
  if c = '\\' then
    let more := rest.takeWhile fun (d : CodePoint) => d = '\\'
    match tag? (rest.drop more.length) with
    | some content => backslashes (more.length + 1) content
    | none => if rest.head? = some '[' then .plain "[" 2 else .plain [c] 1
  else
    match tag? (c :: rest) with
    | some content => .tag content
    | none => .plain [c] 1

/-- The styles that are open behind a tag, the last one first. -/
def follow (place : Nat) (styles : List Text) (content : Text) : Except Fault (List Text) :=
  let name := content.takeWhile fun (c : CodePoint) => c ≠ '='
  if name.head? = some '/' then
    match Text.trim CodePoint.isBlank name.tail, styles with
    | [], _ :: styles => .ok styles
    | [], [] =>
      .error (.markup ("closing tag '[/]' at position " ++ Text.ofNat place ++
        " has nothing to close"))
    | c :: rest, styles =>
      if styles.any (fun style => decide (style = c :: rest)) then
        .ok (styles.eraseP fun style => decide (style = c :: rest))
      else .error (.markup ("closing tag '[" ++ content ++ "]' at position " ++ Text.ofNat place ++
        " doesn't match any open tag"))
  else .ok (Text.trim CodePoint.isBlank name :: styles)

/-- What shows from a place on, behind so many characters that have been dealt with. -/
def renderFrom : (place : Nat) → (styles : List Text) → (dealt : Nat) → Text → Except Fault Text
  | _, _, _, [] => .ok []
  | place, styles, n + 1, _ :: rest => renderFrom (place + 1) styles n rest
  | place, styles, 0, c :: rest =>
    match firstPiece c rest with
    | .plain shown length =>
      (renderFrom (place + 1) styles (length - 1) rest).map fun t => shown ++ t
    | .tag content => do
      let styles ← follow place styles content
      renderFrom (place + 1) styles (content.length + 1) rest

def render (t : Text) : Except Fault Text := renderFrom 0 [] 0 t

end Markup

/-- A console that reads markup. -/
def Console.markup : Console where
  render := Markup.render

end SchemaTransfer
