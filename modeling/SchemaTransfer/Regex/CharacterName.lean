import SchemaTransfer.Text.CodePoint

/-!
# Code points by name

A code point may be called by its name. Known here are the names of the first 128 code points, in
either case, and the names made by rule, those of the unified ideographs and of the Hangul syllables,
in capitals.
-/
namespace SchemaTransfer.CodePoint

def letterNames (kind : String) : List (List String) :=
  "ABCDEFGHIJKLMNOPQRSTUVWXYZ".toList.map fun c => [kind ++ c.toString]

/-- The names of each code point below 128. -/
def asciiNames : List (List String) :=
  [["NULL", "NUL"], ["START OF HEADING", "SOH"], ["START OF TEXT", "STX"], ["END OF TEXT", "ETX"],
   ["END OF TRANSMISSION", "EOT"], ["ENQUIRY", "ENQ"], ["ACKNOWLEDGE", "ACK"], ["ALERT", "BEL"],
   ["BACKSPACE", "BS"], ["CHARACTER TABULATION", "HORIZONTAL TABULATION", "HT", "TAB"],
   ["LINE FEED", "NEW LINE", "END OF LINE", "LF", "NL", "EOL"],
   ["LINE TABULATION", "VERTICAL TABULATION", "VT"], ["FORM FEED", "FF"], ["CARRIAGE RETURN", "CR"],
   ["SHIFT OUT", "LOCKING-SHIFT ONE", "SO"], ["SHIFT IN", "LOCKING-SHIFT ZERO", "SI"],
   ["DATA LINK ESCAPE", "DLE"], ["DEVICE CONTROL ONE", "DC1"], ["DEVICE CONTROL TWO", "DC2"],
   ["DEVICE CONTROL THREE", "DC3"], ["DEVICE CONTROL FOUR", "DC4"], ["NEGATIVE ACKNOWLEDGE", "NAK"],
   ["SYNCHRONOUS IDLE", "SYN"], ["END OF TRANSMISSION BLOCK", "ETB"], ["CANCEL", "CAN"],
   ["END OF MEDIUM", "EOM"], ["SUBSTITUTE", "SUB"], ["ESCAPE", "ESC"],
   ["INFORMATION SEPARATOR FOUR", "FILE SEPARATOR", "FS"],
   ["INFORMATION SEPARATOR THREE", "GROUP SEPARATOR", "GS"],
   ["INFORMATION SEPARATOR TWO", "RECORD SEPARATOR", "RS"],
   ["INFORMATION SEPARATOR ONE", "UNIT SEPARATOR", "US"], ["SPACE", "SP"], ["EXCLAMATION MARK"],
   ["QUOTATION MARK"], ["NUMBER SIGN"], ["DOLLAR SIGN"], ["PERCENT SIGN"], ["AMPERSAND"],
   ["APOSTROPHE"], ["LEFT PARENTHESIS"], ["RIGHT PARENTHESIS"], ["ASTERISK"], ["PLUS SIGN"],
   ["COMMA"], ["HYPHEN-MINUS"], ["FULL STOP"], ["SOLIDUS"], ["DIGIT ZERO"], ["DIGIT ONE"],
   ["DIGIT TWO"], ["DIGIT THREE"], ["DIGIT FOUR"], ["DIGIT FIVE"], ["DIGIT SIX"], ["DIGIT SEVEN"],
   ["DIGIT EIGHT"], ["DIGIT NINE"], ["COLON"], ["SEMICOLON"], ["LESS-THAN SIGN"], ["EQUALS SIGN"],
   ["GREATER-THAN SIGN"], ["QUESTION MARK"], ["COMMERCIAL AT"]] ++
    letterNames "LATIN CAPITAL LETTER " ++
    [["LEFT SQUARE BRACKET"], ["REVERSE SOLIDUS"], ["RIGHT SQUARE BRACKET"], ["CIRCUMFLEX ACCENT"],
     ["LOW LINE"], ["GRAVE ACCENT"]] ++
    letterNames "LATIN SMALL LETTER " ++
    [["LEFT CURLY BRACKET"], ["VERTICAL LINE"], ["RIGHT CURLY BRACKET"], ["TILDE"],
     ["DELETE", "DEL"]]

def ascii? (name : Text) : Option Nat :=
  let capitals := name.map asciiUpper
  asciiNames.findIdx? fun names => names.any fun s => Text.ofString s = capitals

def ideographs : Ranges :=
  [(0x3400, 0x4DBF), (0x4E00, 0x9FFF), (0x20000, 0x2A6DF), (0x2A700, 0x2B738), (0x2B740, 0x2B81D),
   (0x2B820, 0x2CEA1), (0x2CEB0, 0x2EBE0), (0x30000, 0x3134A)]

/-- The ideograph that four or five hexadecimal digits call. -/
def ideograph? (digits : Text) : Option Nat :=
  let n := digits.foldl (fun n c => 16 * n + c.hexValue?.getD 0) 0
  if (digits.length = 4 || digits.length = 5) &&
      digits.all (fun c => c.hexValue?.isSome && c.asciiUpper = c) && ideographs.has (ofNat n) then
    some n
  else none

def firstSounds : List String :=
  ["G", "GG", "N", "D", "DD", "R", "M", "B", "BB", "S", "SS", "", "J", "JJ", "C", "K", "T", "P",
   "H"]

def vowels : List String :=
  ["A", "AE", "YA", "YAE", "EO", "E", "YEO", "YE", "O", "WA", "WAE", "OE", "YO", "U", "WEO", "WE",
   "WI", "YU", "EU", "YI", "I"]

def lastSounds : List String :=
  ["", "G", "GG", "GS", "N", "NJ", "NH", "D", "L", "LG", "LM", "LB", "LS", "LT", "LP", "LH", "M",
   "B", "BS", "S", "SS", "NG", "J", "C", "K", "T", "P", "H"]

/-- The number of the longest sound that a name begins with, and what follows it. -/
def sound? (sounds : List String) (name : Text) : Option (Nat × Text) :=
  sounds.zipIdx.foldl
    (fun found (sound, n) =>
      let t := Text.ofString sound
      let rest := name.drop t.length
      if t.isPrefixOf name && found.all (fun r => rest.length < r.2.length) then some (n, rest)
      else found)
    none

/-- The syllable that is called by its sounds. -/
def syllable? (sounds : Text) : Option Nat := do
  let (first, sounds) ← sound? firstSounds sounds
  let (vowel, sounds) ← sound? vowels sounds
  let (last, sounds) ← sound? lastSounds sounds
  if sounds.isEmpty then some (0xAC00 + (first * vowels.length + vowel) * lastSounds.length + last)
  else none

/-- The code point of a name, if it is known. -/
def named? (name : Text) : Option CodePoint :=
  let syllable : Text := "HANGUL SYLLABLE "
  let ideograph : Text := "CJK UNIFIED IDEOGRAPH-"
  let number? :=
    if syllable.isPrefixOf name then syllable? (name.drop syllable.length)
    else if ideograph.isPrefixOf name then ideograph? (name.drop ideograph.length)
    else ascii? name
  number?.map ofNat

end SchemaTransfer.CodePoint
