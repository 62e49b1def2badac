import SchemaTransfer.Json.Value
import SchemaTransfer.Text.Place
import SchemaTransfer.Text.WholeNumber

/-!
# Reading JSON

The reader takes JSON and besides the words `NaN`, `Infinity` and `-Infinity`. Every part returns
what it has read and the text after it; a refusal carries the text from the offending place on, which
fixes its position. A key that comes twice keeps its first place and its last value.
-/
namespace SchemaTransfer.Json

/-- What is wrong with a text. -/
inductive Cause
  | byteOrderMark
  | value
  | propertyName
  | colon
  | comma
  | unterminatedString
  | controlCharacter
  | escape
  | unicodeEscape
  | extraData
deriving DecidableEq

def Cause.message : Cause → Text
  | .byteOrderMark => "Unexpected UTF-8 BOM (decode using utf-8-sig)"
  | .value => "Expecting value"
  | .propertyName => "Expecting property name enclosed in double quotes"
  | .colon => "Expecting ':' delimiter"
  | .comma => "Expecting ',' delimiter"
  | .unterminatedString => "Unterminated string starting at"
  | .controlCharacter => "Invalid control character at"
  | .escape => "Invalid \\escape"
  | .unicodeEscape => "Invalid \\uXXXX escape"
  | .extraData => "Extra data"

/-- Why reading stopped in front of the text `rest`: a fault, or a whole number of too many digits. -/
inductive Stop
  | malformed (cause : Cause) (rest : Text)
  | tooManyDigits (count : Nat) (rest : Text)

def Stop.rest : Stop → Text
  | malformed _ rest | tooManyDigits _ rest => rest

def isBlank (c : CodePoint) : Bool := c = ' ' || c = '\t' || c = '\n' || c = '\r'

def skipBlank (t : Text) : Text := t.dropWhile isBlank

/-! ## Strings -/

/-- The value of four hexadecimal digits and the text after them. -/
def fourHex? : Text → Option (Nat × Text)
  | a :: b :: c :: d :: rest =>
    match a.hexValue?, b.hexValue?, c.hexValue?, d.hexValue? with
    | some a, some b, some c, some d => some (((a * 16 + b) * 16 + c) * 16 + d, rest)
    | _, _, _, _ => none
  | _ => none

/-- The code point that a letter stands for after a backslash. -/
def shortEscape? (c : CodePoint) : Option CodePoint :=
  if c = '"' ∨ c = '\\' ∨ c = '/' then some c
  else if c = 'b' then some ⟨8, by decide⟩
  else if c = 'f' then some ⟨12, by decide⟩
  else if c = 'n' then some '\n'
  else if c = 'r' then some '\r'
  else if c = 't' then some '\t'
  else none

/-- The second half of a surrogate pair, if `\u` and the digits of one come next. It is looked for
only where the text goes on behind those digits. -/
def secondHalf (rest : Text) : Except Stop (Option (CodePoint × Text)) :=
  match rest with
  | a :: b :: tail =>
    if a = '\\' ∧ b = 'u' ∧ 4 < tail.length then
      match fourHex? tail with
      | none => .error (.malformed .unicodeEscape (b :: tail))
      | some (n, after) =>
        if (CodePoint.ofNat n).isLowSurrogate then .ok (some (.ofNat n, after)) else .ok none
    else .ok none
  | _ => .ok none

/-- An escape `\u`, from its `u` on. -/
def unicodeEscape (u : CodePoint) (tail : Text) : Except Stop (CodePoint × Text) :=
  match fourHex? tail with
  | none | some (_, []) => .error (.malformed .unicodeEscape (u :: tail))
  | some (n, rest) =>
    if (CodePoint.ofNat n).isHighSurrogate then
      match secondHalf rest with
      | .error stop => .error stop
      | .ok (some (low, after)) => .ok (CodePoint.ofPair (.ofNat n) low, after)
      | .ok none => .ok (.ofNat n, rest)
    else .ok (.ofNat n, rest)

/-- An escape, from after its backslash on. -/
def escape (opening : Text) (backslash : CodePoint) (tail : Text) : Except Stop (CodePoint × Text) :=
  match tail with
  | [] => .error (.malformed .unterminatedString opening)
  | c :: rest =>
    if c = 'u' then unicodeEscape c rest
    else match shortEscape? c with
      | some d => .ok (d, rest)
      | none => .error (.malformed .escape (backslash :: tail))

theorem length_of_fourHex? {t rest : Text} {n : Nat} (h : fourHex? t = some (n, rest)) :
    t.length = rest.length + 4 := by
  unfold fourHex? at h
  split at h
  · split at h
    · simp only [Option.some.injEq, Prod.mk.injEq] at h
      simp [h.2]
    · cases h
  · cases h

theorem length_le_of_secondHalf {rest after : Text} {c : CodePoint}
    (h : secondHalf rest = .ok (some (c, after))) : after.length ≤ rest.length := by
  unfold secondHalf at h
  split at h
  · split at h
    · split at h
      · cases h
      · next hf =>
        split at h
        · simp only [Except.ok.injEq, Option.some.injEq, Prod.mk.injEq] at h
          obtain ⟨-, rfl⟩ := h
          have := length_of_fourHex? hf
          simp only [List.length_cons]
          omega
        · cases h
    · cases h
  · cases h

theorem length_le_of_unicodeEscape {u c : CodePoint} {tail after : Text}
    (h : unicodeEscape u tail = .ok (c, after)) : after.length ≤ tail.length := by
  unfold unicodeEscape at h
  split at h
  · cases h
  · cases h
  · next hf =>
    have := length_of_fourHex? hf
    split at h
    · split at h
      · cases h
      · next hs =>
        have := length_le_of_secondHalf hs
        simp only [Except.ok.injEq, Prod.mk.injEq] at h
        obtain ⟨-, rfl⟩ := h
        omega
      · simp only [Except.ok.injEq, Prod.mk.injEq] at h
        obtain ⟨-, rfl⟩ := h
        omega
    · simp only [Except.ok.injEq, Prod.mk.injEq] at h
      obtain ⟨-, rfl⟩ := h
      omega

theorem length_le_of_escape {opening tail after : Text} {b c : CodePoint}
    (h : escape opening b tail = .ok (c, after)) : after.length ≤ tail.length := by
  unfold escape at h
  split at h
  · cases h
  · split at h
    · have := length_le_of_unicodeEscape h
      simp only [List.length_cons]
      omega
    · split at h
      · simp only [Except.ok.injEq, Prod.mk.injEq] at h
        simp [h.2]
      · cases h

/-- The rest of a string after its opening quote; `opening` is the text from that quote on. -/
def stringBody (opening t : Text) : Except Stop (Text × Text) :=
  match t with
  | [] => .error (.malformed .unterminatedString opening)
  | c :: rest =>
    if c = '"' then .ok ([], rest)
    else if c = '\\' then
      match _h : escape opening c rest with
      | .error stop => .error stop
      | .ok (d, after) => (stringBody opening after).map fun (s, r) => (d :: s, r)
    else if c.val < 0x20 then .error (.malformed .controlCharacter t)
    else (stringBody opening rest).map fun (s, r) => (c :: s, r)
termination_by t.length
decreasing_by
  · have := length_le_of_escape _h
    simp only [List.length_cons]
    omega
  · simp

/-! ## Numbers -/

/-- The integer part of a number: one zero, or digits that begin with another one. -/
def integerPart? (t : Text) : Option (Text × Text) :=
  match t with
  | [] => none
  | c :: rest =>
    if c = '0' then some ([c], rest)
    else if c.isAsciiDigit then some (t.takeWhile (·.isAsciiDigit), t.dropWhile (·.isAsciiDigit))
    else none

/-- The digits of a fraction, if a point and a digit come next. -/
def fractionPart? (t : Text) : Option (Text × Text) :=
  match t with
  | c :: d :: rest =>
    if c = '.' ∧ d.isAsciiDigit then
      some ((d :: rest).takeWhile (·.isAsciiDigit), (d :: rest).dropWhile (·.isAsciiDigit))
    else none
  | _ => none

/-- A sign at the head of a text, and the text without it. -/
def exponentSign (t : Text) : Bool × Text :=
  match t with
  | [] => (false, [])
  | c :: rest => if c = '-' then (true, rest) else if c = '+' then (false, rest) else (false, t)

/-- An exponent, if one comes next that has a digit. -/
def exponentPart? (t : Text) : Option (Int × Text) :=
  match t with
  | [] => none
  | c :: rest =>
    if c = 'e' ∨ c = 'E' then
      let (negative, tail) := exponentSign rest
      let digits := tail.takeWhile (·.isAsciiDigit)
      if digits.isEmpty then none
      else
        let n : Int := Text.digitsValue digits
        some (if negative then -n else n, tail.dropWhile (·.isAsciiDigit))
    else none

/-- A number without its sign; `start` is the text from the sign on. -/
def magnitude (negative : Bool) (start t : Text) : Except Stop (Json × Text) :=
  match integerPart? t with
  | none => .error (.malformed .value start)
  | some (digits, rest) =>
    let fraction := fractionPart? rest
    let rest := (fraction.map Prod.snd).getD rest
    let exponent := exponentPart? rest
    let rest := (exponent.map Prod.snd).getD rest
    if fraction.isSome ∨ exponent.isSome then
      let decimals := (fraction.map Prod.fst).getD []
      let power := (exponent.map Prod.fst).getD 0
      .ok (.double (Double.ofDecimal negative (Text.digitsValue (digits ++ decimals))
        (power - decimals.length)), rest)
    else if Text.maxDigits < digits.length then .error (.tooManyDigits digits.length start)
    else
      let n : Int := Text.digitsValue digits
      .ok (.int (if negative then -n else n), rest)

def number (t : Text) : Except Stop (Json × Text) :=
  match t with
  | [] => .error (.malformed .value t)
  | c :: rest => if c = '-' then magnitude true t rest else magnitude false t t

/-! ## Values -/

/-- The values that are written as words. -/
def words : List (Text × Json) :=
  [("null", .null), ("true", .bool true), ("false", .bool false), ("NaN", .double .nan),
    ("Infinity", .double (.inf false)), ("-Infinity", .double (.inf true))]

/-- A word or a number. -/
def scalar (t : Text) : Except Stop (Json × Text) :=
  match words.find? fun w => w.1.isPrefixOf t with
  | some w => .ok (w.2, t.drop w.1.length)
  | none => number t

/-- The text after the code point `c`, which has to come next. -/
def expect (c : CodePoint) (cause : Cause) (t : Text) : Except Stop Text :=
  match t with
  | [] => .error (.malformed cause t)
  | d :: rest => if d = c then .ok rest else .error (.malformed cause t)

mutual

/-- The value at the head of a text. Fuel of twice the length and one more is enough, since of two
steps in a row at least one reads something. -/
def value : (fuel : Nat) → Text → Except Stop (Json × Text)
  | 0, t => .error (.malformed .value t)
  | fuel + 1, t =>
    match t with
    | [] => .error (.malformed .value t)
    | c :: rest =>
      if c = '"' then (stringBody t rest).map fun (s, r) => (.string s, r)
      else if c = '{' then
        match expect '}' .propertyName (skipBlank rest) with
        | .ok after => .ok (.object [], after)
        | .error _ => members fuel [] (skipBlank rest)
      else if c = '[' then
        match expect ']' .value (skipBlank rest) with
        | .ok after => .ok (.array [], after)
        | .error _ => elements fuel [] (skipBlank rest)
      else scalar t

/-- The members of an object from a key on, added to those already read. -/
def members : (fuel : Nat) → List (Text × Json) → Text → Except Stop (Json × Text)
  | 0, _, t => .error (.malformed .value t)
  | fuel + 1, done, t => do
    let body ← expect '"' .propertyName t
    let (key, rest) ← stringBody t body
    let rest ← expect ':' .colon (skipBlank rest)
    let (v, rest) ← value fuel (skipBlank rest)
    let done := Entries.put key v done
    let rest := skipBlank rest
    match expect '}' .comma rest with
    | .ok after => .ok (.object done, after)
    | .error _ =>
      let rest ← expect ',' .comma rest
      members fuel done (skipBlank rest)

/-- The elements of an array from a value on; those already read come in reverse. -/
def elements : (fuel : Nat) → List Json → Text → Except Stop (Json × Text)
  | 0, _, t => .error (.malformed .value t)
  | fuel + 1, done, t => do
    let (v, rest) ← value fuel t
    let done := v :: done
    let rest := skipBlank rest
    match expect ']' .comma rest with
    | .ok after => .ok (.array done.reverse, after)
    | .error _ =>
      let rest ← expect ',' .comma rest
      elements fuel done (skipBlank rest)

end

/-! ## Texts -/

/-- Why a text is refused. -/
inductive ReadError
  | malformed (cause : Cause) (place : Place)
  | tooManyDigits (count : Nat)
deriving DecidableEq

def ReadError.message : ReadError → Text
  | .malformed cause place =>
    cause.message ++ ": line " ++ Text.ofNat place.line ++ " column " ++ Text.ofNat place.column ++
      " (char " ++ Text.ofNat place.offset ++ ")"
  | .tooManyDigits count => Text.tooManyDigits count

def Stop.inText (t : Text) : Stop → ReadError
  | .malformed cause rest => .malformed cause (.behind (t.take (t.length - rest.length)))
  | .tooManyDigits count _ => .tooManyDigits count

def byteOrderMark : CodePoint := ⟨0xFEFF, by decide⟩

/-- A value that takes up the whole text, blanks aside. -/
def document (t : Text) : Except Stop Json :=
  if t.head? = some byteOrderMark then .error (.malformed .byteOrderMark t)
  else do
    let (v, rest) ← value (2 * t.length + 1) (skipBlank t)
    let rest := skipBlank rest
    if rest.isEmpty then .ok v else .error (.malformed .extraData rest)

def read (t : Text) : Except ReadError Json := (document t).mapError (·.inText t)

end SchemaTransfer.Json
