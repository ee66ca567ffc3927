/-
# Text

Cutting, trimming and case of texts. Letters are folded in ASCII only; blanks
are the characters with the Unicode property White_Space:

| code points | |
| --- | --- |
| `0009`–`000D`, `0020` | tab to carriage return, space |
| `0085`, `00A0`, `1680` | next line, no-break space, ogham space |
| `2000`–`200A` | en quad to hair space |
| `2028`, `2029`, `202F`, `205F`, `3000` | separators and wide spaces |

Functions work on `List Char`, where a cut is a plain list operation; the
`String` versions wrap them.
-/
namespace Raster

namespace Text

/-- Whether a character is white space. -/
def isBlank (c : Char) : Bool :=
  let n := c.toNat
  (9 ≤ n && n ≤ 13) || n == 0x20 || n == 0x85 || n == 0xA0 || n == 0x1680
    || (0x2000 ≤ n && n ≤ 0x200A) || n == 0x2028 || n == 0x2029 || n == 0x202F || n == 0x205F
    || n == 0x3000

/-- Drops blanks at both ends. -/
def trimChars (cs : List Char) : List Char :=
  ((cs.dropWhile isBlank).reverse.dropWhile isBlank).reverse

/-- Drops blanks at both ends. -/
def trim (s : String) : String := String.ofList (trimChars s.toList)

/-- ASCII letters in lower case. -/
def lower (s : String) : String := String.ofList (s.toList.map Char.toLower)

/-- Cuts at every character that passes the test: always one piece more than there are cuts. -/
def splitChars (cut : Char → Bool) : List Char → List (List Char)
  | [] => [[]]
  | c :: rest =>
    if cut c then [] :: splitChars cut rest
    else
      match splitChars cut rest with
      | [] => [[c]]
      | piece :: pieces => (c :: piece) :: pieces

/-- Cuts at every character that passes the test and drops empty pieces. -/
def words (cut : Char → Bool) (s : String) : List String :=
  ((splitChars cut s.toList).filter (!·.isEmpty)).map String.ofList

/-- The parts before and after the first occurrence of a character. -/
def cutFirst (sep : Char) : List Char → Option (List Char × List Char)
  | [] => none
  | c :: rest =>
    if c = sep then some ([], rest)
    else (cutFirst sep rest).map fun (before, after) => (c :: before, after)

/-- The parts before and after the last occurrence of a character. -/
def cutLast (sep : Char) : List Char → Option (List Char × List Char)
  | [] => none
  | c :: rest =>
    match cutLast sep rest with
    | some (before, after) => some (c :: before, after)
    | none => if c = sep then some ([], rest) else none

/-- The rest of a list after a given beginning. -/
def afterStart : (start cs : List Char) → Option (List Char)
  | [], cs => some cs
  | _ :: _, [] => none
  | a :: start, c :: cs => if a = c then afterStart start cs else none

/-- Whether a text begins with another. -/
def startsWith (s start : String) : Bool := start.toList.isPrefixOf s.toList

/-- Whether a text ends with another. -/
def endsWith (s tail : String) : Bool := tail.toList.isSuffixOf s.toList

/-- Texts with a separator between them. -/
def join (separator : String) (texts : List String) : String := separator.intercalate texts

/-- A text filled up with blanks on the right to at least `n` characters. -/
def padRight (n : Nat) (s : String) : String :=
  s ++ String.ofList (List.replicate (n - s.length) ' ')

/-- A text filled up with blanks on the left to at least `n` characters. -/
def padLeft (n : Nat) (s : String) : String :=
  String.ofList (List.replicate (n - s.length) ' ') ++ s

end Text

end Raster
