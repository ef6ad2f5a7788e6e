import AntiEntropator.Hexadecimal

/-!
# JSON values and their text

Objects keep their members in order, repeated keys included.  Integers are kept
as such, any other number as it is written.  `pretty` writes one item or member
a line, indented by two blanks a level, and `[]` and `{}` for the empty ones.
-/

inductive Json where
  | null
  | bool (value : Bool)
  | integer (value : Int)
  | decimal (literal : String)
  | string (text : String)
  | array (items : List Json)
  | object (members : List (String × Json))

namespace Json

/-- The characters with an escape of two characters, and its second one. -/
def shortEscapes : List (Char × Char) :=
  [('\x22', '\x22'), ('\x5c', '\x5c'), ('\x08', 'b'), ('\x0c', 'f'), ('\n', 'n'), ('\r', 'r'),
    ('\t', 't')]

/-- A character as it stands in a string: only what must be escaped is. -/
def escape (character : Char) : List Char :=
  match shortEscapes.find? fun entry => entry.1 = character with
  | some (_, letter) => ['\x5c', letter]
  | none =>
      if character.toNat < 0x20 then
        ['\x5c', 'u', '0', '0', Hexadecimal.digit (character.toNat / 16),
          Hexadecimal.digit (character.toNat % 16)]
      else [character]

def quote (text : String) : List Char := '\x22' :: (text.toList.flatMap escape ++ ['\x22'])

def newline (depth : Nat) : List Char := '\n' :: List.replicate (2 * depth) ' '

mutual

def pretty (depth : Nat) : Json → List Char
  | .null => ['n', 'u', 'l', 'l']
  | .bool true => ['t', 'r', 'u', 'e']
  | .bool false => ['f', 'a', 'l', 's', 'e']
  | .integer value => value.repr.toList
  | .decimal literal => literal.toList
  | .string text => quote text
  | .array [] => ['[', ']']
  | .array (item :: items) =>
      '[' :: (newline (depth + 1) ++ (pretty (depth + 1) item ++ prettyItems depth items))
  | .object [] => ['\x7b', '\x7d']
  | .object ((key, value) :: members) =>
      '\x7b' :: (newline (depth + 1) ++ (quote key ++ (':' :: ' ' ::
        (pretty (depth + 1) value ++ prettyMembers depth members))))

/-- The items behind the first one, and the end of the array. -/
def prettyItems (depth : Nat) : List Json → List Char
  | [] => newline depth ++ [']']
  | item :: items =>
      ',' :: (newline (depth + 1) ++ (pretty (depth + 1) item ++ prettyItems depth items))

def prettyMembers (depth : Nat) : List (String × Json) → List Char
  | [] => newline depth ++ ['\x7d']
  | (key, value) :: members =>
      ',' :: (newline (depth + 1) ++ (quote key ++ (':' :: ' ' ::
        (pretty (depth + 1) value ++ prettyMembers depth members))))

end

mutual

def nesting : Json → Nat
  | .array items => nestingItems items + 1
  | .object members => nestingMembers members + 1
  | .null | .bool _ | .integer _ | .decimal _ | .string _ => 0

def nestingItems : List Json → Nat
  | [] => 0
  | item :: items => max (nesting item) (nestingItems items)

def nestingMembers : List (String × Json) → Nat
  | [] => 0
  | (_, value) :: members => max (nesting value) (nestingMembers members)

end

def toText (value : Json) : String := String.ofList (pretty 0 value)

example : toText (.object [("a", .array []), ("b", .string "x\n")]) =
    "\x7b\n  \x22a\x22: [],\n  \x22b\x22: \x22x\\n\x22\n\x7d" := by decide

end Json
