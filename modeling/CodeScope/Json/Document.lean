import CodeScope.Number.Shortest
import CodeScope.Text.Hex

/-!
# JSON documents

A document is a tree whose objects keep the order of their members. It is printed without blanks or
with an indentation of two blanks for each level. Numbers that are not finite have no form of their
own and are printed as null.
-/

namespace CodeScope

/-- A JSON document. -/
inductive Json where
  | null
  | bool (value : Bool)
  | int (value : Int)
  | float (value : Binary64)
  | text (content : String)
  | array (items : List Json)
  | object (members : List (String × Json))

namespace Json

/-- A natural number. -/
def nat (value : Nat) : Json := int value

/-- A byte string as an array of numbers. -/
def bytes (data : List UInt8) : Json := array (data.map fun byte => nat byte.toNat)

/-- An array of texts. -/
def texts (contents : List String) : Json := array (contents.map text)

/-- A value that may be absent. -/
def option (value : Option Json) : Json := value.getD null

/-- A character inside quotes. -/
def escape (char : Char) : List Char :=
  if char = '"' then ['\\', '"']
  else if char = '\\' then ['\\', '\\']
  else if char = '\x08' then ['\\', 'b']
  else if char = '\x0c' then ['\\', 'f']
  else if char = '\n' then ['\\', 'n']
  else if char = '\r' then ['\\', 'r']
  else if char = '\t' then ['\\', 't']
  else if char.toNat < 0x20 then
    ['\\', 'u', '0', '0', Hex.digit (char.toNat / 16), Hex.digit (char.toNat % 16)]
  else [char]

/-- A text with its quotes and escapes. -/
def quoted (content : String) : String :=
  String.ofList ('"' :: content.toList.flatMap escape ++ ['"'])

/-- The shortest digits of a number, with an exponent if that is below -5 or above 15. -/
def number (value : Binary64) : String :=
  if value.isNaN || value.isInfinite then
    "null"
  else
    let sign := if value.isNegative then "-" else ""
    let decimal := value.shortest .even
    let digits :=
      if value.isZero then "0.0"
      else if decimal.magnitude < -5 ∨ 16 ≤ decimal.magnitude then decimal.scientific
      else if 0 ≤ decimal.exponent then decimal.positional ++ ".0"
      else decimal.positional
    sign ++ digits

mutual

/-- A document without blanks. -/
def compact : Json → String
  | null => "null"
  | bool true => "true"
  | bool false => "false"
  | int value => toString value
  | float value => number value
  | text content => quoted content
  | array items => "[" ++ String.intercalate "," (compactItems items) ++ "]"
  | object members => "\x7b" ++ String.intercalate "," (compactMembers members) ++ "\x7d"

/-- The items of an array without blanks. -/
def compactItems : List Json → List String
  | [] => []
  | item :: rest => item.compact :: compactItems rest

/-- The members of an object without blanks. -/
def compactMembers : List (String × Json) → List String
  | [] => []
  | (key, value) :: rest => (quoted key ++ ":" ++ value.compact) :: compactMembers rest

end

/-- The start of a line at a level. -/
def indentation (level : Nat) : String :=
  String.ofList ('\n' :: List.replicate (2 * level) ' ')

/-- Parts on lines of their own between two brackets; the brackets alone if there are no parts. -/
def block (level : Nat) (opening closing : String) (parts : List String) : String :=
  if parts.isEmpty then
    opening ++ closing
  else
    let inner := indentation (level + 1)
    opening ++ inner ++ String.intercalate ("," ++ inner) parts ++ indentation level ++ closing

mutual

/-- A document with a line for every part, its first line being at a level already. -/
def prettyAt (level : Nat) : Json → String
  | null => "null"
  | bool true => "true"
  | bool false => "false"
  | int value => toString value
  | float value => number value
  | text content => quoted content
  | array items => block level "[" "]" (prettyItems (level + 1) items)
  | object members => block level "\x7b" "\x7d" (prettyMembers (level + 1) members)

/-- The items of an array at a level. -/
def prettyItems (level : Nat) : List Json → List String
  | [] => []
  | item :: rest => item.prettyAt level :: prettyItems level rest

/-- The members of an object at a level. -/
def prettyMembers (level : Nat) : List (String × Json) → List String
  | [] => []
  | (key, value) :: rest =>
      (quoted key ++ ": " ++ value.prettyAt level) :: prettyMembers level rest

end

/-- A document with a line for every part. -/
def pretty (document : Json) : String := document.prettyAt 0

end Json
end CodeScope
