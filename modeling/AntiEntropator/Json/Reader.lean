import AntiEntropator.Json.Text

/-!
# Reading JSON

A machine that reads one character at a time.  The mode says where in a token
it is; the focus says what may follow, with the arrays and objects that are
still open.  Reading a text in two parts is reading the one and then the other.
-/

namespace Json

/-- An array or object around the place of the reader. -/
inductive Frame where
  | array (items : List Json)
  | object (members : List (String × Json)) (key : String)

/-- What may follow: a value, a separator, a key, a colon, or nothing more. -/
inductive Focus where
  | value (frames : List Frame)
  | items (items : List Json) (frames : List Frame)
  | key (members : List (String × Json)) (frames : List Frame)
  | colon (members : List (String × Json)) (key : String) (frames : List Frame)
  | members (members : List (String × Json)) (frames : List Frame)
  | done (value : Json)

def deliver (value : Json) : List Frame → Focus
  | [] => .done value
  | .array items :: frames => .items (items ++ [value]) frames
  | .object members key :: frames => .members (members ++ [(key, value)]) frames

def punctuate : Focus → Char → Option Focus
  | .value frames, '[' => some (.value (.array [] :: frames))
  | .value frames, '\x7b' => some (.key [] frames)
  -- Only the end of an empty array may stand in the place of a value.
  | .value (.array [] :: frames), ']' => some (deliver (.array []) frames)
  | .items items frames, ',' => some (.value (.array items :: frames))
  | .items items frames, ']' => some (deliver (.array items) frames)
  | .key [] frames, '\x7d' => some (deliver (.object []) frames)
  | .colon members key frames, ':' => some (.value (.object members key :: frames))
  | .members members frames, ',' => some (.key members frames)
  | .members members frames, '\x7d' => some (deliver (.object members) frames)
  | _, _ => none

def takeScalar (value : Json) : Focus → Option Focus
  | .value frames => some (deliver value frames)
  | _ => none

def takeString (text : String) : Focus → Option Focus
  | .value frames => some (deliver (.string text) frames)
  | .key members frames => some (.colon members text frames)
  | _ => none

/-! ## Numbers and words -/

def readNatural : List Char → Option Nat
  | [] => none
  | ['0'] => some 0
  | '0' :: _ => none
  | digits => if digits.all Char.isDigit then some (Nat.ofDigitChars 10 digits 0) else none

/-- Minus zero is no integer. -/
def readInteger : List Char → Option Int
  | '-' :: digits =>
      match readNatural digits with
      | some (value + 1) => some (Int.negSucc value)
      | _ => none
  | digits => (readNatural digits).map Int.ofNat

def isExponent : List Char → Bool
  | letter :: rest =>
      let digits := match rest with
        | '+' :: digits => digits
        | '-' :: digits => digits
        | digits => digits
      (letter = 'e' || letter = 'E') && !digits.isEmpty && digits.all Char.isDigit
  | [] => false

def isDecimal (literal : List Char) : Bool :=
  let unsigned := match literal with
    | '-' :: rest => rest
    | rest => rest
  let (whole, rest) := unsigned.span Char.isDigit
  (readNatural whole).isSome && match rest with
    | '.' :: rest =>
        let (fraction, rest) := rest.span Char.isDigit
        !fraction.isEmpty && (rest.isEmpty || isExponent rest)
    | rest => rest.isEmpty || isExponent rest

def readAtom (letters : List Char) : Option Json :=
  if letters = ['n', 'u', 'l', 'l'] then some .null
  else if letters = ['t', 'r', 'u', 'e'] then some (.bool true)
  else if letters = ['f', 'a', 'l', 's', 'e'] then some (.bool false)
  else
    match readInteger letters with
    | some value => some (.integer value)
    | none => if isDecimal letters then some (.decimal (String.ofList letters)) else none

/-! ## The machine -/

/-- Where in a token the reader is. -/
inductive Mode where
  | idle
  | atom (letters : List Char)
  | text (characters : List Char)
  | escape (characters : List Char)
  | unicode (characters : List Char) (high : Option Nat) (digits : List Nat)
  | surrogate (characters : List Char) (high : Nat) (backslash : Bool)

structure Reader where
  mode : Mode
  focus : Focus

def isAtomChar (character : Char) : Bool :=
  character.isAlphanum || character = '-' || character = '+' || character = '.'

def isSpace (character : Char) : Bool :=
  character = ' ' || character = '\n' || character = '\r' || character = '\t'

namespace Reader

def between (focus : Focus) (character : Char) : Option Reader :=
  if isAtomChar character then some ⟨.atom [character], focus⟩
  else if isSpace character then some ⟨.idle, focus⟩
  else if character = '\x22' then some ⟨.text [], focus⟩
  else (punctuate focus character).map fun focus => ⟨.idle, focus⟩

/-- The end of a token that has no closing character. -/
def settle (reader : Reader) : Option Focus :=
  match reader.mode with
  | .idle => some reader.focus
  | .atom letters => (readAtom letters).bind fun value => takeScalar value reader.focus
  | _ => none

/-- The four digits of an escape; two surrogates make one character. -/
def codeUnit (characters : List Char) (high : Option Nat) (unit : Nat) : Option Mode :=
  match high with
  | none =>
      if 0xD800 ≤ unit ∧ unit < 0xDC00 then some (.surrogate characters unit false)
      else if 0xDC00 ≤ unit ∧ unit < 0xE000 then none
      else some (.text (characters ++ [Char.ofNat unit]))
  | some high =>
      if 0xDC00 ≤ unit ∧ unit < 0xE000 then
        some (.text (characters ++
          [Char.ofNat (0x10000 + (high - 0xD800) * 0x400 + (unit - 0xDC00))]))
      else none

def escaped : Mode → Char → Option Mode
  | .escape characters, character =>
      if character = 'u' then some (.unicode characters none [])
      else if character = '/' then some (.text (characters ++ ['/']))
      else (shortEscapes.find? fun entry => entry.2 = character).map fun entry =>
        .text (characters ++ [entry.1])
  | .unicode characters high digits, character =>
      (Hexadecimal.value? character).bind fun value =>
        match digits with
        | [first, second, third] =>
            codeUnit characters high (Hexadecimal.number [first, second, third, value])
        | digits => some (.unicode characters high (digits ++ [value]))
  | .surrogate characters high false, '\x5c' => some (.surrogate characters high true)
  | .surrogate characters high true, 'u' => some (.unicode characters (some high) [])
  | _, _ => none

def step (reader : Reader) (character : Char) : Option Reader :=
  match reader.mode with
  | .idle => between reader.focus character
  | .atom letters =>
      if isAtomChar character then some ⟨.atom (letters ++ [character]), reader.focus⟩
      else reader.settle.bind fun focus => between focus character
  | .text characters =>
      if character = '\x22' then
        (takeString (String.ofList characters) reader.focus).map fun focus => ⟨.idle, focus⟩
      else if character = '\x5c' then some ⟨.escape characters, reader.focus⟩
      else if character.toNat < 0x20 then none
      else some ⟨.text (characters ++ [character]), reader.focus⟩
  | mode => (escaped mode character).map fun mode => ⟨mode, reader.focus⟩

def run (reader : Reader) (text : List Char) : Option Focus :=
  (text.foldlM step reader).bind settle

end Reader

def read (text : List Char) : Option Json :=
  match Reader.run ⟨.idle, .value []⟩ text with
  | some (.done value) => some value
  | _ => none

end Json
