import SchemaTransfer.Run.Event

/-!
# Runs

A run changes a world and ends in a value or in a failure. A failure undoes nothing.
-/
namespace SchemaTransfer

/-- What a run can change: the files, the tables of the destination in order of their arrival, and
the record of what has happened. -/
structure World where
  files : FileSystem
  tables : List Bigtable.Request
  events : List Event

/-- Where a run shows things. What is handed to it is marked up; a console has its own way of
reading that, and need not be able to read all. -/
structure Console where
  /-- What shows of a marked-up text, or why nothing can be shown. -/
  render : Text → Except Fault Text := .ok

namespace Console

/-- Why the console shows none of some texts that are handed to it together, if so: the first that
it cannot show keeps all from being shown. -/
def refusal? (console : Console) (ts : List Text) : Option Fault :=
  ts.findSome? fun t =>
    match console.render t with
    | .ok _ => none
    | .error fault => some fault

/-- What shows of a marked-up text. -/
def shows (console : Console) (t : Text) : Text :=
  match console.render t with
  | .ok shown => shown
  | .error _ => []

end Console

/-- What a run finds and cannot change. -/
structure Surroundings where
  hbase : HBase.Server
  bigtable : Bigtable.Service
  /-- The answer that will be given to a question, `none` if the question is broken off. -/
  answer : Option Bool
  runId : Text
  console : Console := {}

namespace World

def note (w : World) (e : Event) : World := { w with events := w.events ++ [e] }

def calls (w : World) : List HBase.Call := w.events.filterMap Event.call?

def requests (w : World) : List Bigtable.Request := w.events.filterMap Event.request?

end World

def Run (ε α : Type) : Type := World → Except ε α × World

namespace Run

variable {ε ε' α β : Type}

def pure (a : α) : Run ε α := fun w => (.ok a, w)

def bind (x : Run ε α) (f : α → Run ε β) : Run ε β := fun w =>
  match x w with
  | (.ok a, w) => f a w
  | (.error e, w) => (.error e, w)

instance : Monad (Run ε) where
  pure := pure
  bind := bind

def fail (e : ε) : Run ε α := fun w => (.error e, w)

def ofExcept : Except ε α → Run ε α
  | .ok a => pure a
  | .error e => fail e

/-- A run that cannot fail; what was a failure becomes its result. -/
def result (x : Run ε α) : Run ε' (Except ε α) := fun w =>
  match x w with
  | (r, w) => (.ok r, w)

/-- The run `x`, and `f` in place of its failure if it fails. -/
def recover (x : Run ε α) (f : ε → Run ε' α) : Run ε' α := fun w =>
  match x w with
  | (.ok a, w) => (.ok a, w)
  | (.error e, w) => f e w

/-- The run `x` with `last` after it in any case. Where both fail, the failure of `last` counts. -/
def ensuring (x : Run ε α) (last : Run ε Unit) : Run ε α := fun w =>
  match x w with
  | (r, w) =>
    match last w with
    | (.ok (), w) => (r, w)
    | (.error e, w) => (.error e, w)

def note (e : Event) : Run ε Unit := fun w => (.ok (), w.note e)

def log (level : LogLevel) (message : Text) : Run ε Unit := note (.log level message)

theorem bind_apply (x : Run ε α) (f : α → Run ε β) (w : World) :
    (x >>= f) w = match x w with
      | (.ok a, w) => f a w
      | (.error e, w) => (.error e, w) := rfl

theorem pure_apply (a : α) (w : World) : (Pure.pure a : Run ε α) w = (.ok a, w) := rfl

end Run

end SchemaTransfer
