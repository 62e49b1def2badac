import SchemaTransfer.Text.CodePoint

/-!
# Line ends

A text file may end its lines with LF, CR or CR LF; what is read from it has LF throughout.
-/
namespace SchemaTransfer.Text

/-- `afterReturn` says that a carriage return, already turned into a line feed, went before. -/
def unifyFrom (afterReturn : Bool) : Text → Text
  | [] => []
  | c :: rest =>
    if c = '\r' then '\n' :: unifyFrom true rest
    else if c = '\n' ∧ afterReturn then unifyFrom false rest
    else c :: unifyFrom false rest

def unifyNewlines (t : Text) : Text := unifyFrom false t

end SchemaTransfer.Text
