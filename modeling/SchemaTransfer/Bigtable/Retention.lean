import SchemaTransfer.Schema.Table

/-!
# Retention of cells

A cluster drops a cell that is beyond the greatest number of versions of its family or older than
its time to live. The rule of the destination collects the same cells.
-/
namespace SchemaTransfer

inductive Retention
  | maxVersions (count : Nat)
  | maxAge (seconds : Nat)
  | union (a b : Retention)
deriving DecidableEq

/-- The time to live that stands for keeping cells for ever. -/
def foreverSeconds : Nat := 2147483647

namespace ConfigValue

/-- The whole number that a bound stands for: doubles are cut off, truth values are 0 and 1, and text
is read. An infinite bound is an error, and what converts to no whole number is no bound. -/
def bound? : ConfigValue → Except Failure (Option Int)
  | .json (.bool b) => .ok (some (if b then 1 else 0))
  | .json (.int i) => .ok (some i)
  | .json (.double (.inf _)) => .error .infiniteBound
  | .json (.double d) => .ok d.truncate?
  | .json (.string t) => .ok t.wholeNumber?
  | .json _ => .ok none
  | .foreign _ whole _ => .ok whole
  | .bytes b =>
    .ok (if b.all (· < 0x80) then Text.wholeNumber? (b.map fun n => .ofNat n.toNat) else none)

end ConfigValue

namespace Config

/-- The bound under a key, if it is a positive number. -/
def positive? (c : Config) (key : Text) : Except Failure (Option Nat) :=
  match c.get? key with
  | none => .ok none
  | some v =>
    match v.bound? with
    | .error e => .error e
    | .ok (some (.ofNat (n + 1))) => .ok (some (n + 1))
    | .ok _ => .ok none

/-- The rule for a family, `none` if its cells are kept. -/
def retention? (c : Config) : Except Failure (Option Retention) := do
  let versions ← positive? c "max_versions"
  let age ← positive? c "time_to_live"
  let age := age.filter (· < foreverSeconds)
  match versions, age with
  | none, none => return none
  | some n, none => return some (.maxVersions n)
  | none, some s => return some (.maxAge s)
  | some n, some s => return some (.union (.maxVersions n) (.maxAge s))

end Config

end SchemaTransfer
