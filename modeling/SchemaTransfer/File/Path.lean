import SchemaTransfer.Text.CodePoint

/-!
# File paths

A path is held without empty parts and without parts that name their own directory, so `./a//b/` and
`a/b` are one path. A part `..` is kept.
-/
namespace SchemaTransfer

structure Path where
  /-- The slashes in front: none, one, or exactly two. -/
  root : Text
  parts : List Text
deriving DecidableEq

namespace Path

def ofText (t : Text) : Path where
  root :=
    let slashes := t.takeWhile (· = CodePoint.ofChar '/')
    if slashes.length = 2 then slashes else slashes.take 1
  parts := (Text.splitAt '/' t).filter fun part => part ≠ [] ∧ part ≠ "."

def text (p : Path) : Text :=
  let t := p.root ++ Text.join "/" p.parts
  if t.isEmpty then "." else t

def isAbsolute (p : Path) : Bool := !p.root.isEmpty

/-- Whether a NUL stands in the path; such a path names no file. -/
def hasNul (p : Path) : Bool := p.parts.any fun part => part.any fun c => c.val = 0

end Path

end SchemaTransfer
