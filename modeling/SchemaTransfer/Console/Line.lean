import SchemaTransfer.Text.CodePoint

/-!
# Printed lines

A command prints lines of a few kinds, each with its own sign or style. A style is opened by its
name in brackets and closed by `[/]`.
-/
namespace SchemaTransfer

inductive Line
  | info (message : Text)
  | success (message : Text)
  | warning (message : Text)
  | error (message : Text)
  | heading (title : Text)
  | hint (message : Text)
  | fact (key value : Text)

namespace Line

def styled (style t : Text) : Text := "[" ++ style ++ "]" ++ t ++ "[/]"

def markup : Line → Text
  | info message => styled "title" "›" ++ " " ++ message
  | success message => styled "ok" "✓" ++ " " ++ message
  | warning message => styled "warn" "⚠" ++ " " ++ message
  | error message => styled "err" "✗" ++ " " ++ message
  | heading title => styled "title" title
  | hint message => styled "meta" message
  | fact key value => styled "meta" key ++ ": " ++ value

end Line

end SchemaTransfer
