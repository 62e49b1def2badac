import SchemaTransfer.Text.Blank

/-!
# Resource ids

Ids are often pasted as part of a full resource name such as `projects/p/instances/i`.
-/
namespace SchemaTransfer

/-- The part after the first occurrence of `collection`. -/
def partAfter? (collection : Text) : List Text → Option Text
  | [] => none
  | part :: rest => if part = collection then rest.head? else partAfter? collection rest

/-- The id that a value names in a collection: of a full name the part after the collection, of
anything else the value without the blanks and slashes around it. -/
def resourceId (value collection : Text) : Text :=
  let bare := Text.trim (· = CodePoint.ofChar '/') (Text.trim (·.isBlank) value)
  (partAfter? collection (Text.splitAt '/' bare)).getD bare

end SchemaTransfer
