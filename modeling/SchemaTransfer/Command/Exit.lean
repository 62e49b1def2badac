import SchemaTransfer.Console.Listing
import SchemaTransfer.Run.World

/-!
# How commands speak and end

A command ends with an exit code. A failure that it has no words for ends it at once, and so does a
console that does not take what is handed to it.
-/
namespace SchemaTransfer

inductive Exit
  | code (n : Nat)
  | raised (e : Failure)

namespace Exit

def done : Exit := code 0

def failed : Exit := code 1

/-- The input was at fault. -/
def misused : Exit := code 2

/-- The exit of a run. -/
def ofResult : Except Exit Unit → Exit
  | .ok () => done
  | .error e => e

end Exit

namespace Run

variable {α : Type}

/-! ## Speaking -/

/-- Ends at once where there is a fault, and records the event otherwise. -/
def handOver (refusal : Option Fault) (e : Event) : Run Exit Unit :=
  match refusal with
  | some fault => fail (.raised (.outside fault))
  | none => note e

def say (console : Console) (l : Line) : Run Exit Unit :=
  handOver (console.refusal? [l.markup]) (.print l.markup)

def present (console : Console) (l : Listing) : Run Exit Unit :=
  handOver (console.refusal? l.texts) (.table l.title l.header l.rows)

/-- Asks for consent. A question that is broken off counts as refused. -/
def ask (s : Surroundings) (question : Text) : Run Exit Bool := do
  say s.console (.hint "Use y/n then Enter")
  note (.confirm ("[hbschema] " ++ question) false)
  return s.answer.getD false

/-! ## Ending early -/

/-- There is nothing more to do. -/
def stop (console : Console) (warning : Text) : Run Exit α := do
  say console (.warning warning)
  fail .done

/-- The input was at fault; the usage is shown. -/
def misuse (console : Console) (message : Text) : Run Exit α := do
  say console (.error message)
  note .usage
  fail .misused

/-- Something outside has to be set up first. -/
def giveUp (console : Console) (message : Text) : Run Exit α := do
  say console (.error message)
  fail .failed

/-- The run failed, though the input was in order. -/
def giveUpWithHint (console : Console) (message : Text) : Run Exit α := do
  say console (.error message)
  say console (.hint "Run with --help for usage.")
  fail .failed

/-- A run as a part of a command: a failure that can be reported is reported, with `intro` in front,
and any other ends the command at once. -/
def reporting (console : Console) (intro : Text) (x : Run Failure α) : Run Exit α :=
  x.recover fun e =>
    if e.isReported then giveUpWithHint console (intro ++ e.message) else fail (.raised e)

end Run

end SchemaTransfer
