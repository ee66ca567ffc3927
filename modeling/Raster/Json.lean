/-
# JSON

Values and their texts. Entries of an object keep their order.

| text | layout |
| --- | --- |
| `compact` | one line without blanks |
| `pretty` | a line for every item, indented by two blanks a level; nothing in an empty array or object |

Quotes, backslashes and control characters are escaped, all others stand as they
are.
-/
import Raster.Double
import Raster.Text

namespace Raster

/-- A JSON value. -/
inductive Json where
  | null
  | boolean (v : Bool)
  | integer (v : Int)
  | real (v : Double)
  | text (v : String)
  | array (items : List Json)
  | object (entries : List (String × Json))
  deriving Inhabited

namespace Json

/-- The four hexadecimal digits of a control character. -/
def hexDigits (n : Nat) : List Char := ['0', '0', Nat.digitChar (n / 16), Nat.digitChar (n % 16)]

/-- How a character stands in a string. -/
def escape (c : Char) : List Char :=
  if c = '"' then ['\\', '"']
  else if c = '\\' then ['\\', '\\']
  else if c = '\n' then ['\\', 'n']
  else if c = '\r' then ['\\', 'r']
  else if c = '\t' then ['\\', 't']
  else if c = '\x08' then ['\\', 'b']
  else if c = '\x0c' then ['\\', 'f']
  else if c.toNat < 32 then '\\' :: 'u' :: hexDigits c.toNat
  else [c]

/-- A string in quotes. -/
def quote (s : String) : String :=
  "\"" ++ String.ofList (s.toList.flatMap escape) ++ "\""

/-- The text of a value that has no parts. -/
def scalar : Json → String
  | boolean v => toString v
  | integer v => toString v
  | real v => v.reportText
  | text v => quote v
  | _ => "null"

mutual

/-- The value in one line. -/
def compact : Json → String
  | array items => "[" ++ Text.join "," (compactItems items) ++ "]"
  | object entries => "\x7b" ++ Text.join "," (compactEntries entries) ++ "\x7d"
  | v => v.scalar

/-- The items of an array, each in one line. -/
def compactItems : List Json → List String
  | [] => []
  | v :: rest => compact v :: compactItems rest

/-- The entries of an object, each in one line. -/
def compactEntries : List (String × Json) → List String
  | [] => []
  | (key, v) :: rest => (quote key ++ ":" ++ compact v) :: compactEntries rest

end

/-- A line break and the blanks of a level. -/
def lineStart (level : Nat) : String :=
  "\n" ++ String.ofList (List.replicate (2 * level) ' ')

/-- Parts on lines of their own between two brackets. -/
def block (left right : String) (level : Nat) (parts : List String) : String :=
  if parts.isEmpty then left ++ right
  else
    left ++ lineStart (level + 1) ++ Text.join ("," ++ lineStart (level + 1)) parts
      ++ lineStart level ++ right

mutual

/-- The value with a line for every item, at a level. -/
def prettyAt (level : Nat) : Json → String
  | array items => block "[" "]" level (prettyItems (level + 1) items)
  | object entries => block "\x7b" "\x7d" level (prettyEntries (level + 1) entries)
  | v => v.scalar

/-- The items of an array at a level. -/
def prettyItems (level : Nat) : List Json → List String
  | [] => []
  | v :: rest => prettyAt level v :: prettyItems level rest

/-- The entries of an object at a level. -/
def prettyEntries (level : Nat) : List (String × Json) → List String
  | [] => []
  | (key, v) :: rest => (quote key ++ ": " ++ prettyAt level v) :: prettyEntries level rest

end

/-- The value with a line for every item. -/
def pretty (v : Json) : String := prettyAt 0 v

/-- Entries in the order of their keys. -/
def byKey (entries : List (String × Json)) : List (String × Json) :=
  entries.mergeSort fun a b => a.1 ≤ b.1

mutual

/-- The value with the entries of all its objects in key order. -/
def sorted : Json → Json
  | array items => array (sortedItems items)
  | object entries => object (byKey (sortedEntries entries))
  | v => v

/-- The items of an array, each sorted. -/
def sortedItems : List Json → List Json
  | [] => []
  | v :: rest => sorted v :: sortedItems rest

/-- The entries of an object, each value sorted. -/
def sortedEntries : List (String × Json) → List (String × Json)
  | [] => []
  | (key, v) :: rest => (key, sorted v) :: sortedEntries rest

end

end Json

end Raster
