import SchemaTransfer.Regex.Pattern
import SchemaTransfer.Text.Place
import SchemaTransfer.Text.Quoted
import SchemaTransfer.Text.WholeNumber

/-!
# Faults of regular expressions
-/
namespace SchemaTransfer.Regex

/-- What is wrong with a pattern. -/
inductive Complaint
  | badEscapeAtEnd
  | badEscape (escape : Text)
  | incompleteEscape (escape : Text)
  | octalRange (escape : Text)
  | missingBrace
  | missingName (what : Text)
  | unterminatedName (terminator : CodePoint)
  | undefinedCharacter (name : Text)
  | unterminatedSet
  | badRange (low high : Text)
  | nothingToRepeat
  | multipleRepeat
  | repeatOrder
  | unexpectedEnd
  | unknownExtension (extension : Text)
  | badNameCharacter (name : Text)
  | unknownName (name : Text)
  | redefinedName (name : Text) (index earlier : Nat)
  | openGroup
  | laterGroupInLook
  | invalidReference (index : Nat)
  | badGroupNumber
  | tooManyBranches
  | unterminatedComment
  | unterminatedGroup
  | unbalanced
  | flagsNotAtStart
  | localeFlag
  | incompatibleFlags
  | unknownFlag
  | missingFlagEnd
  | missingFlag
  | missingColon
  | globalFlagOn
  | globalFlagOff
  | typeFlagOff
  | flagOnAndOff
  | variableLookBehind
  | repeatInTemplate (mode : Mode)
deriving DecidableEq

/-- How messages name a repetition. -/
def Mode.operator : Mode → Text
  | .greedy => "MAX_REPEAT"
  | .lazy => "MIN_REPEAT"
  | .possessive => "POSSESSIVE_REPEAT"

namespace Complaint

def message : Complaint → Text
  | badEscapeAtEnd => "bad escape (end of pattern)"
  | badEscape escape => "bad escape " ++ escape
  | incompleteEscape escape => "incomplete escape " ++ escape
  | octalRange escape => "octal escape value " ++ escape ++ " outside of range 0-0o377"
  | missingBrace => "missing \x7b"
  | missingName what => "missing " ++ what
  | unterminatedName terminator => "missing " ++ [terminator] ++ ", unterminated name"
  | undefinedCharacter name => "undefined character name " ++ name.quoted
  | unterminatedSet => "unterminated character set"
  | badRange low high => "bad character range " ++ low ++ "-" ++ high
  | nothingToRepeat => "nothing to repeat"
  | multipleRepeat => "multiple repeat"
  | repeatOrder => "min repeat greater than max repeat"
  | unexpectedEnd => "unexpected end of pattern"
  | unknownExtension extension => "unknown extension ?" ++ extension
  | badNameCharacter name => "bad character in group name " ++ name.quoted
  | unknownName name => "unknown group name " ++ name.quoted
  | redefinedName name index earlier =>
    "redefinition of group name " ++ name.quoted ++ " as group " ++ Text.ofNat index ++
      "; was group " ++ Text.ofNat earlier
  | openGroup => "cannot refer to an open group"
  | laterGroupInLook => "cannot refer to group defined in the same lookbehind subpattern"
  | invalidReference index => "invalid group reference " ++ Text.ofNat index
  | badGroupNumber => "bad group number"
  | tooManyBranches => "conditional backref with more than two branches"
  | unterminatedComment => "missing ), unterminated comment"
  | unterminatedGroup => "missing ), unterminated subpattern"
  | unbalanced => "unbalanced parenthesis"
  | flagsNotAtStart => "global flags not at the start of the expression"
  | localeFlag => "bad inline flags: cannot use 'L' flag with a str pattern"
  | incompatibleFlags => "bad inline flags: flags 'a', 'u' and 'L' are incompatible"
  | unknownFlag => "unknown flag"
  | missingFlagEnd => "missing -, : or )"
  | missingFlag => "missing flag"
  | missingColon => "missing :"
  | globalFlagOn => "bad inline flags: cannot turn on global flag"
  | globalFlagOff => "bad inline flags: cannot turn off global flag"
  | typeFlagOff => "bad inline flags: cannot turn off flags 'a', 'u' and 'L'"
  | flagOnAndOff => "bad inline flags: flag turned on and off"
  | variableLookBehind => "look-behind requires fixed-width pattern"
  | repeatInTemplate mode => "internal: unsupported template operator " ++ mode.operator

end Complaint

/-- Why a pattern is refused. A malformed pattern of several lines is reported with line and column
as well. -/
inductive Fault
  | malformed (complaint : Complaint) (place : Option Place) (severalLines : Bool)
  | repetitionTooLarge
  /-- The number of an escape does not fit in 31 bits. -/
  | codePointTooLarge
  | tooManyDigits (count : Nat)
  /-- The whole pattern asks for both kinds of character classes. -/
  | asciiAndUnicode
deriving DecidableEq

def Fault.message : Fault → Text
  | .malformed complaint none _ => complaint.message
  | .malformed complaint (some place) severalLines =>
    complaint.message ++ " at position " ++ Text.ofNat place.offset ++
      (if severalLines then
        " (line " ++ Text.ofNat place.line ++ ", column " ++ Text.ofNat place.column ++ ")"
      else "")
  | .repetitionTooLarge => "the repetition number is too large"
  | .codePointTooLarge => "Python int too large to convert to C int"
  | .tooManyDigits count => Text.tooManyDigits count
  | .asciiAndUnicode => "ASCII and UNICODE flags are incompatible"

end SchemaTransfer.Regex
