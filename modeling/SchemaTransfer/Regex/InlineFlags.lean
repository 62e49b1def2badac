import SchemaTransfer.Regex.Reader

/-!
# Flags inside regular expressions

Letters behind `(?` switch flags on, those behind a minus sign switch them off, for a group or for
the whole pattern.
-/
namespace SchemaTransfer.Regex.Reader

/-- The flag of a letter, `L` apart. -/
def flag? (t : Text) : Option Flags :=
  match t with
  | [c] =>
    if c = 'i' then some { ignoreCase := true }
    else if c = 'm' then some { multiline := true }
    else if c = 's' then some { dotAll := true }
    else if c = 'x' then some { verbose := true }
    else if c = 'a' then some { ascii := true }
    else if c = 'u' then some { unicode := true }
    else if c = 't' then some { template := true }
    else none
  | _ => none

def isLocale (t : Text) : Bool := t = [CodePoint.ofChar 'L']

def isFlag (t : Text) : Bool := (flag? t).isSome || isLocale t

/-- Whether a token is a letter. -/
def isLetter : Text → Bool
  | [c] => c.isLetter
  | _ => false

/-- Complains of a token that is no flag. -/
def noFlag (t : Text) (otherwise : Complaint) : Reader α :=
  complain (if isLetter t then .unknownFlag else otherwise) t.length

/-- The flags to switch on, from the token `t` on, and the token that ends them. -/
def flagsOn : (fuel : Nat) → (done : Flags) → (t : Text) → Reader (Flags × Text)
  | 0, done, t => return (done, t)
  | fuel + 1, done, t => do
    if isLocale t then complain .localeFlag 0
    let done := done.union ((flag? t).getD .none)
    if done.ascii && done.unicode then complain .incompatibleFlags 0
    let u ← take
    if u.isEmpty then complain .missingFlagEnd 0
    if u = ")" ∨ u = "-" ∨ u = ":" then return (done, u)
    if !isFlag u then noFlag u .missingFlagEnd
    flagsOn fuel done u

/-- The flags to switch off, from the token `t` on, up to a colon. -/
def flagsOff : (fuel : Nat) → (done : Flags) → (t : Text) → Reader Flags
  | 0, done, _ => return done
  | fuel + 1, done, t => do
    let f := (flag? t).getD .none
    if isLocale t || f.ascii || f.unicode then complain .typeFlagOff 0
    let done := done.union f
    let u ← take
    if u.isEmpty then complain .missingColon 0
    if u = ":" then return done
    if !isFlag u then noFlag u .missingColon
    flagsOff fuel done u

/-- The flags to switch on and off in a group, from the token `t` on; `none` if they are switched on
for the whole pattern. -/
def flags (t : Text) : Reader (Option (Flags × Flags)) := do
  let fuel := (← get).pattern.length + 1
  let (on, final) ← if t = "-" then pure (Flags.none, t) else flagsOn fuel .none t
  if final = ")" then
    modify fun r => { r with flags := r.flags.union on }
    return none
  if on.template then complain .globalFlagOn 1
  let off ←
    if final = "-" then do
      let u ← take
      if u.isEmpty then complain .missingFlag 0
      if !isFlag u then noFlag u .missingFlag
      flagsOff fuel .none u
    else pure Flags.none
  if off.template then complain .globalFlagOff 1
  if on.meet off then complain .flagOnAndOff 1
  return some (on, off)

end SchemaTransfer.Regex.Reader
