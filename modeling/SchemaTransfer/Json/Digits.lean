import SchemaTransfer.Json.Value
import SchemaTransfer.Text.WholeNumber

/-!
# Numbers that are too long

A whole number of more than 4300 digits is not turned into text and not read from it. What is asked
of all values inside a value is said by `Everywhere`.
-/
namespace SchemaTransfer.Json

mutual

/-- `p` holds of the value and of every value inside it. -/
def Everywhere (p : Json → Prop) : Json → Prop
  | .array items => p (.array items) ∧ EveryItem p items
  | .object members => p (.object members) ∧ EveryMember p members
  | v => p v

def EveryItem (p : Json → Prop) : List Json → Prop
  | [] => True
  | v :: rest => Everywhere p v ∧ EveryItem p rest

def EveryMember (p : Json → Prop) : List (Text × Json) → Prop
  | [] => True
  | (_, v) :: rest => Everywhere p v ∧ EveryMember p rest

end

mutual

def decideEverywhere (p : Json → Prop) [DecidablePred p] : (v : Json) → Decidable (Everywhere p v)
  | .array items =>
    have := decideEveryItem p items
    inferInstanceAs (Decidable (p (.array items) ∧ EveryItem p items))
  | .object members =>
    have := decideEveryMember p members
    inferInstanceAs (Decidable (p (.object members) ∧ EveryMember p members))
  | .null => inferInstanceAs (Decidable (p .null))
  | .bool b => inferInstanceAs (Decidable (p (.bool b)))
  | .int i => inferInstanceAs (Decidable (p (.int i)))
  | .double d => inferInstanceAs (Decidable (p (.double d)))
  | .string t => inferInstanceAs (Decidable (p (.string t)))

def decideEveryItem (p : Json → Prop) [DecidablePred p] : (items : List Json) →
    Decidable (EveryItem p items)
  | [] => .isTrue trivial
  | v :: rest =>
    have := decideEverywhere p v
    have := decideEveryItem p rest
    inferInstanceAs (Decidable (Everywhere p v ∧ EveryItem p rest))

def decideEveryMember (p : Json → Prop) [DecidablePred p] : (members : List (Text × Json)) →
    Decidable (EveryMember p members)
  | [] => .isTrue trivial
  | (_, v) :: rest =>
    have := decideEverywhere p v
    have := decideEveryMember p rest
    inferInstanceAs (Decidable (Everywhere p v ∧ EveryMember p rest))

end

instance (p : Json → Prop) [DecidablePred p] : DecidablePred (Everywhere p) := decideEverywhere p

/-- Whole numbers of at most `maxDigits` digits. -/
def FewDigits (i : Int) : Prop := i.natAbs < Nat.pow 10 Text.maxDigits

instance : DecidablePred FewDigits := fun _ => Nat.decLt _ _

/-- Whole numbers have few enough digits to be read and written. -/
def DigitsFit : Json → Prop
  | .int i => FewDigits i
  | _ => True

instance : DecidablePred DigitsFit
  | .int i => inferInstanceAs (Decidable (FewDigits i))
  | .null | .bool _ | .double _ | .string _ | .array _ | .object _ => .isTrue trivial

end SchemaTransfer.Json
