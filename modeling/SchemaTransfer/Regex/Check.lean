import SchemaTransfer.Regex.Fault

/-!
# Faults of whole patterns

A pattern that has been read may still hold a look-behind over something that has no fixed width, or,
under the flag for templates, a repetition.
-/
namespace SchemaTransfer.Regex

mutual

/-- The first fault in a pattern; `template` says whether it is to be a template. -/
def Pattern.fault? (template : Bool) : Pattern → Option Complaint
  | .repeated mode _ _ body =>
    if template then some (.repeatInTemplate mode) else body.fault? template
  | .look back _ body =>
    if back.all Width.isFixed then body.fault? template else some .variableLookBehind
  | .sequence parts => Pattern.firstFault? template parts
  | .choice branches => Pattern.firstFault? template branches
  | .group _ _ _ body | .atomic body => body.fault? template
  | .conditional _ yes no => (yes.fault? template).or (no.fault? template)
  | .literal _ | .notLiteral _ | .any | .set _ _ | .anchor _ | .backreference _ => none

def Pattern.firstFault? (template : Bool) : List Pattern → Option Complaint
  | [] => none
  | p :: rest => (p.fault? template).or (Pattern.firstFault? template rest)

end

end SchemaTransfer.Regex
