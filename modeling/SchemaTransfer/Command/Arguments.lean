import SchemaTransfer.Text.CodePoint

/-!
# Arguments

How a command tells options from other arguments. An option is written `--option`, and its value
follows as the next argument or after an equals sign; a flag takes no value. One-letter flags may
be written together after one dash. What follows `--` is no option.
-/
namespace SchemaTransfer

/-- What is wrong with arguments. -/
inductive UsageError
  | noArguments
  | missingCommand
  | unknownCommand (name : Text)
  | extraArgument (argument : Text)
  | unknownOption (option : Text)
  | missingValue (option : Text)
  | needlessValue (option : Text)
  | missingFile
  | badPort (value : Text)
deriving DecidableEq

namespace Arguments

/-- The options of a command. -/
structure Vocabulary where
  /-- The options that take a value, by their names without dashes. -/
  values : List Text
  flags : List Text
  /-- Flags of one letter, each with its full name. -/
  letters : List (CodePoint × Text)
  /-- Whether options may follow other arguments. -/
  interspersed : Bool

structure Occurrence where
  option : Text
  /-- Nothing for a flag. -/
  value : Option Text
deriving DecidableEq

/-- Arguments taken apart: the options in order, and all else. -/
structure Parsed where
  options : List Occurrence
  others : List Text
deriving DecidableEq

namespace Parsed

def withOptions (os : List Occurrence) (p : Parsed) : Parsed := { p with options := os ++ p.options }

def withOther (t : Text) (p : Parsed) : Parsed := { p with others := t :: p.others }

def has (p : Parsed) (option : Text) : Bool := p.options.any fun o => o.option = option

def count (p : Parsed) (option : Text) : Nat := p.options.countP fun o => o.option = option

/-- The value of an option; where it is given more than once, the last. -/
def value? (p : Parsed) (option : Text) : Option Text :=
  (p.options.reverse.find? fun o => o.option = option).bind Occurrence.value

end Parsed

/-- The text before the first `=`, and the text after it if there is one. -/
def splitEquals : Text → Text × Option Text
  | [] => ([], none)
  | c :: rest =>
    if c = '=' then ([], some rest)
    else
      let (name, value) := splitEquals rest
      (c :: name, value)

/-- The flags that letters stand for. -/
def ofLetters (v : Vocabulary) : Text → Except UsageError (List Occurrence)
  | [] => .ok []
  | c :: rest =>
    match v.letters.lookup c with
    | some flag => (ofLetters v rest).map (⟨flag, none⟩ :: ·)
    | none => .error (.unknownOption ['-', c])

inductive Kind
  | value
  | flag

def Vocabulary.kind? (v : Vocabulary) (name : Text) : Option Kind :=
  if name ∈ v.values then some .value else if name ∈ v.flags then some .flag else none

/-- What one argument is. -/
inductive Shape
  | terminator
  | long (name : Text) (value : Option Text)
  | letters (t : Text)
  | other
deriving DecidableEq

def shapeOf : Text → Shape
  | [] => .other
  | c :: t =>
    if c ≠ '-' then .other
    else match t with
      | [] => .other
      | d :: u =>
        if d ≠ '-' then .letters t
        else if u = [] then .terminator
        else .long (splitEquals u).1 (splitEquals u).2

def parse (v : Vocabulary) : List Text → Except UsageError Parsed
  | [] => .ok ⟨[], []⟩
  | argument :: rest =>
    match shapeOf argument with
    | .terminator => .ok ⟨[], rest⟩
    | .other =>
      if v.interspersed then (parse v rest).map (·.withOther argument) else .ok ⟨[], argument :: rest⟩
    | .letters t =>
      match ofLetters v t with
      | .error e => .error e
      | .ok flags => (parse v rest).map (·.withOptions flags)
    | .long name value =>
      match v.kind? name, value with
      | none, _ => .error (.unknownOption name)
      | some .flag, some _ => .error (.needlessValue name)
      | some .flag, none => (parse v rest).map (·.withOptions [⟨name, none⟩])
      | some .value, some t => (parse v rest).map (·.withOptions [⟨name, some t⟩])
      | some .value, none =>
        match rest with
        | [] => .error (.missingValue name)
        | t :: rest => (parse v rest).map (·.withOptions [⟨name, some t⟩])

end Arguments

end SchemaTransfer
