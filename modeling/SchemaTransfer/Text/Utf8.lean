import SchemaTransfer.Text.Numeral

/-!
# UTF-8

Strict encoding and decoding. Overlong forms, surrogates, cut sequences and numbers above 10FFFF are
malformed. A malformed sequence is reported with the longest beginning that could still have
become well formed. `decodeWith` makes something of the bytes that belong to no well-formed sequence instead
of refusing them.
-/
namespace SchemaTransfer.Utf8

/-- The sequence of one code point that is no surrogate. -/
def encodeOne (c : CodePoint) : Bytes :=
  let n := c.val
  if n < 0x80 then [UInt8.ofNat n]
  else if n < 0x800 then [UInt8.ofNat (0xC0 + n / 0x40), UInt8.ofNat (0x80 + n % 0x40)]
  else if n < 0x10000 then
    [UInt8.ofNat (0xE0 + n / 0x1000), UInt8.ofNat (0x80 + n / 0x40 % 0x40),
      UInt8.ofNat (0x80 + n % 0x40)]
  else
    [UInt8.ofNat (0xF0 + n / 0x40000), UInt8.ofNat (0x80 + n / 0x1000 % 0x40),
      UInt8.ofNat (0x80 + n / 0x40 % 0x40), UInt8.ofNat (0x80 + n % 0x40)]

/-- Refuses text that holds a surrogate. -/
def encode? : Text → Option Bytes
  | [] => some []
  | c :: rest => if c.isSurrogate then none else (encode? rest).map (encodeOne c ++ ·)

/-- Why a sequence is malformed. -/
inductive Reason
  | invalidStart
  | invalidContinuation
  | unexpectedEnd
deriving DecidableEq

def Reason.message : Reason → Text
  | .invalidStart => "invalid start byte"
  | .invalidContinuation => "invalid continuation byte"
  | .unexpectedEnd => "unexpected end of data"

/-- What stands at the head of a byte string: a code point and the bytes after it, or a malformed
beginning of the given length. -/
inductive Head
  | point (c : CodePoint) (rest : Bytes)
  | malformed (reason : Reason) (length : Nat)

def isContinuation (b : UInt8) : Bool := 0x80 ≤ b.toNat && b.toNat < 0xC0

/-- Whether `b` may follow the start byte `start` of a sequence of three or four: this is where
overlong forms, surrogates and numbers above 10FFFF are ruled out. -/
def maySecond (start b : UInt8) : Bool :=
  isContinuation b &&
    !(start.toNat = 0xE0 && b.toNat < 0xA0) && !(start.toNat = 0xED && 0xA0 ≤ b.toNat) &&
    !(start.toNat = 0xF0 && b.toNat < 0x90) && !(start.toNat = 0xF4 && 0x90 ≤ b.toNat)

def head (start : UInt8) (rest : Bytes) : Head :=
  let n := start.toNat
  if n < 0x80 then .point (.ofNat n) rest
  else if n < 0xC2 then .malformed .invalidStart 1
  else if n < 0xE0 then
    match rest with
    | [] => .malformed .unexpectedEnd 1
    | b₁ :: rest₁ =>
      if isContinuation b₁ then .point (.ofNat ((n - 0xC0) * 0x40 + (b₁.toNat - 0x80))) rest₁
      else .malformed .invalidContinuation 1
  else if n < 0xF5 then
    match rest with
    | [] => .malformed .unexpectedEnd 1
    | b₁ :: rest₁ =>
      if maySecond start b₁ then
        match rest₁ with
        | [] => .malformed .unexpectedEnd 2
        | b₂ :: rest₂ =>
          if isContinuation b₂ then
            if n < 0xF0 then
              .point (.ofNat ((n - 0xE0) * 0x1000 + (b₁.toNat - 0x80) * 0x40 + (b₂.toNat - 0x80)))
                rest₂
            else
              match rest₂ with
              | [] => .malformed .unexpectedEnd 3
              | b₃ :: rest₃ =>
                if isContinuation b₃ then
                  .point (.ofNat ((n - 0xF0) * 0x40000 + (b₁.toNat - 0x80) * 0x1000 +
                    (b₂.toNat - 0x80) * 0x40 + (b₃.toNat - 0x80))) rest₃
                else .malformed .invalidContinuation 3
          else .malformed .invalidContinuation 2
      else .malformed .invalidContinuation 1
  else .malformed .invalidStart 1

theorem length_le_of_head {start : UInt8} {rest rest' : Bytes} {c : CodePoint}
    (h : head start rest = .point c rest') : rest'.length ≤ rest.length := by
  unfold head at h
  dsimp only at h
  repeat' split at h
  all_goals simp only [Head.point.injEq, reduceCtorEq] at h
  all_goals
    obtain ⟨-, rfl⟩ := h
    simp [Nat.le_succ_of_le]

/-- A malformed sequence: its first byte, its place, the count of its bytes and what is wrong. -/
structure Malformed where
  first : UInt8
  start : Nat
  length : Nat
  reason : Reason
deriving DecidableEq

def Malformed.message (m : Malformed) : Text :=
  "'utf-8' codec can't decode " ++
    (if m.length = 1 then
      "byte 0x" ++ Text.hex 2 m.first.toNat ++ " in position " ++ Text.ofNat m.start
    else
      "bytes in position " ++ Text.ofNat m.start ++ "-" ++ Text.ofNat (m.start + m.length - 1)) ++
    ": " ++ m.reason.message

/-- Decodes bytes that end a string of `total` bytes. -/
def decodeWithin (total : Nat) (bytes : Bytes) : Except Malformed Text :=
  match bytes with
  | [] => .ok []
  | start :: rest =>
    match _h : head start rest with
    | .point c rest' => (decodeWithin total rest').map (c :: ·)
    | .malformed reason length => .error ⟨start, total - (rest.length + 1), length, reason⟩
termination_by bytes.length
decreasing_by
  have := length_le_of_head _h
  simp only [List.length_cons]; omega

def decode (bytes : Bytes) : Except Malformed Text := decodeWithin bytes.length bytes

/-- Every well-formed sequence becomes its code point. A malformed one is passed over as a whole, and
each of its bytes becomes what `stray` makes of it. -/
def decodeWith (stray : UInt8 → Text) (bytes : Bytes) : Text :=
  match bytes with
  | [] => []
  | start :: rest =>
    match _h : head start rest with
    | .point c rest' => c :: decodeWith stray rest'
    | .malformed _ length =>
      ((start :: rest).take length).flatMap stray ++ decodeWith stray (rest.drop (length - 1))
termination_by bytes.length
decreasing_by
  · have := length_le_of_head _h
    simp only [List.length_cons]; omega
  · simp only [List.length_cons, List.length_drop]; omega

/-- A byte in hexadecimal, as an escape. -/
def byteEscape (b : UInt8) : Text := "\\x" ++ Text.hex 2 b.toNat

/-- Every well-formed sequence becomes its code point and the bytes of malformed ones are written
`\xNN`. -/
def decodeEscaped (bytes : Bytes) : Text := decodeWith byteEscape bytes

end SchemaTransfer.Utf8
