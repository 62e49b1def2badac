import SchemaTransfer.Regex.Escape

/-!
# Character sets in regular expressions
-/
namespace SchemaTransfer.Regex.Reader

/-- The item that a token inside a set stands for. -/
def setItem (t : Text) : Reader SetItem :=
  match t with
  | [c] => return .one c
  | _ => setEscape t

/-- The items of a set up to its closing bracket; `start` is the place of the opening one. -/
def setItems (start : Nat) : (fuel : Nat) → (done : List SetItem) → Reader (List SetItem)
  | 0, done => return done
  | fuel + 1, done => do
    let t ← take
    if t.isEmpty then complainAt .unterminatedSet start
    if t = [CodePoint.ofChar ']'] && !done.isEmpty then return done
    let item ← setItem t
    if ← accept '-' then
      let u ← take
      if u.isEmpty then complainAt .unterminatedSet start
      if u = [CodePoint.ofChar ']'] then return done ++ [item, .one '-']
      let last ← setItem u
      match item, last with
      | .one low, .one high =>
        if high.val < low.val then complain (.badRange t u) (t.length + 1 + u.length)
        setItems start fuel (done ++ [.range low high])
      | _, _ => complain (.badRange t u) (t.length + 1 + u.length)
    else setItems start fuel (done ++ [item])

/-- A character set, its opening bracket taken. -/
def charSet : Reader Pattern := do
  let start := (← place) - 1
  let negated ← accept '^'
  let items ← setItems start ((← get).pattern.length + 1) []
  match items.eraseDups with
  | [.one c] => return if negated then .notLiteral c else .literal c
  | items => return .set negated items

end SchemaTransfer.Regex.Reader
