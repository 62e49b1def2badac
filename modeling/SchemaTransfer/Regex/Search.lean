import SchemaTransfer.Regex.Pattern
import SchemaTransfer.Dict

/-!
# Searching with a way back

A search tries one way after another until one leads to the end. What matches a part of a pattern is
told what comes behind a match of it and what else there is to try if nothing comes of that. All that
is put off is a function, so a search takes no more steps than it needs.
-/
namespace SchemaTransfer.Regex

/-- A place in the text that is searched, and what the groups that are referred to have taken up. -/
structure Spot where
  place : Nat
  captures : List (Nat × Nat × Nat)
deriving DecidableEq

/-- A search that has failed, has found its end, or is still to go on. -/
inductive Search
  | failed
  | found (s : Spot)
  | goOn (rest : Unit → Search)

/-- Carries a search through. -/
def Search.result? : Search → Option Spot
  | .failed => none
  | .found s => some s
  | .goOn rest => (rest ()).result?

/-- What comes behind a match that ends at the spot, with what else there is to try. -/
abbrev Next := Spot → Search → Search

/-- How a part of a pattern is matched from a spot on. -/
abbrev Step := Next → Next

/-- The end of the first match there is. -/
def Step.first? (step : Step) (s : Spot) : Option Spot :=
  (step (fun e _ => .found e) s .failed).result?

/-- Only the first match counts. -/
def Step.atomic (step : Step) : Step := fun next s other =>
  match step.first? s with
  | some e => next e other
  | none => other

/-! ## Repetition -/

/-- A spot between two rounds of a repetition. A round that takes up nothing is the last one; what
may still come after the spot therefore depends on where the round before it began. -/
structure Round where
  spot : Spot
  /-- Where the last round began, unless it was one of the rounds that have to be. -/
  began : Option Nat
  /-- How many further rounds are allowed. -/
  left : Option Nat
deriving DecidableEq

def Round.mayGoOn (r : Round) : Bool := r.began ≠ some r.spot.place && r.left ≠ some 0

def Round.next (r : Round) (spot : Spot) : Round := ⟨spot, some r.spot.place, r.left.map (· - 1)⟩

namespace Step

/-- Any number of further rounds, as many as can be first if `eager`, as few as can be first if
not. -/
def further (step : Step) (eager : Bool) (next : Next) : (fuel : Nat) → Round → Search → Search
  | 0, r, other => next r.spot other
  | fuel + 1, r, other =>
    if r.mayGoOn then
      let again (other : Search) : Search :=
        step (fun s other => further step eager next fuel (r.next s) other) r.spot other
      if eager then .goOn fun () => again (.goOn fun () => next r.spot other)
      else .goOn fun () => next r.spot (.goOn fun () => again other)
    else next r.spot other

/-- Exactly `count` rounds. -/
def times (step : Step) (next : Next) : (count : Nat) → Next
  | 0 => next
  | count + 1 => fun s other => .goOn fun () => step (times step next count) s other

/-- The spot after as many further rounds as there can be, each taking its first way. -/
def furthest (step : Step) : (fuel : Nat) → Round → Spot
  | 0, r => r.spot
  | fuel + 1, r =>
    if r.mayGoOn then
      match step.first? r.spot with
      | none => r.spot
      | some s => furthest step fuel (r.next s)
    else r.spot

/-- A repetition where `size` code points are searched. No more rounds than there are code points
left can take up something, and one that takes up nothing ends it. -/
def repetition (step : Step) (mode : Mode) (least : Nat) (most : Option Nat) (size : Nat) : Step :=
  fun next =>
    let start (s : Spot) : Round := ⟨s, none, most.map (· - least)⟩
    let fuel (s : Spot) : Nat := size - s.place + 2
    match mode with
    | .greedy => step.times (fun s other => step.further true next (fuel s) (start s) other) least
    | .lazy => step.times (fun s other => step.further false next (fuel s) (start s) other) least
    | .possessive =>
      step.atomic.times (fun s other => next (step.furthest (fuel s) (start s)) other) least

end Step

end SchemaTransfer.Regex
