/-
# Reading TOML

Reads the text of a settings file, as far as settings need it. Supported are
comments, bare, quoted and dotted keys, table headers, inline tables, arrays, the
four kinds of strings, integers in four bases, floats and booleans. Dates and arrays
of tables are refused here, where they stand; no setting takes them, so a file with
one is refused in any case.

A key is set once. A header names a table that was not defined before, though
parts of it may be; a dotted key extends only tables that dotted keys made.
Arrays and inline tables stand at most 79 deep in each other, and a dotted key
has at most 79 parts.

Every function takes the characters in front and returns what it read together
with the characters behind; `none` is a fault.
-/
import Raster.Bytes
import Raster.Text.Number
import Raster.Toml.Basic

namespace Raster

namespace Toml

namespace Reader

/-- Space or tab. -/
def isSpace (c : Char) : Bool := c == ' ' || c == '\t'

/-- Skips spaces and tabs. -/
def skipSpace (cs : List Char) : List Char := cs.dropWhile isSpace

/-- Whether a character may stand in a comment or a string as it is. -/
def isPlain (c : Char) : Bool := c == '\t' || (0x20 ≤ c.toNat && c.toNat != 0x7F)

/-- Skips a comment, if one starts here. -/
def skipComment : List Char → List Char
  | '#' :: rest => rest.dropWhile isPlain
  | cs => cs

/-- The text behind a line break. -/
def lineBreak : List Char → Option (List Char)
  | '\n' :: rest => some rest
  | '\r' :: '\n' :: rest => some rest
  | _ => none

/-- Skips spaces and a comment up to the end of the line. -/
def endOfLine (cs : List Char) : Option (List Char) :=
  match skipComment (skipSpace cs) with
  | [] => some []
  | rest => lineBreak rest

/-- Skips spaces and line breaks; a carriage return alone is no line break. -/
def skipBlank : (fuel : Nat) → List Char → List Char
  | 0, cs => cs
  | fuel + 1, cs =>
    match lineBreak (skipSpace cs) with
    | some rest => skipBlank fuel rest
    | none => skipSpace cs

/-- Skips spaces, comments and line breaks. -/
def skipLines : (fuel : Nat) → List Char → List Char
  | 0, cs => cs
  | fuel + 1, cs =>
    let cs := skipComment (skipSpace cs)
    match lineBreak cs with
    | some rest => skipLines fuel rest
    | none => cs

/-- The character with a hexadecimal number, if there is one. -/
def unicode (ds : List Char) : Option Char := do
  let n ← ds.foldlM (fun acc d => (Bytes.hexDigit? d).map (acc * 16 + ·)) 0
  if n.isValidChar then some (Char.ofNat n) else none

/-- The character that an escape stands for; `cs` follow the backslash. -/
def escape : List Char → Option (Char × List Char)
  | 'b' :: rest => some ('\x08', rest)
  | 't' :: rest => some ('\t', rest)
  | 'n' :: rest => some ('\n', rest)
  | 'f' :: rest => some ('\x0c', rest)
  | 'r' :: rest => some ('\r', rest)
  | '"' :: rest => some ('"', rest)
  | '\\' :: rest => some ('\\', rest)
  | 'u' :: rest =>
    if rest.length < 4 then none else (unicode (rest.take 4)).map fun c => (c, rest.drop 4)
  | 'U' :: rest =>
    if rest.length < 8 then none else (unicode (rest.take 8)).map fun c => (c, rest.drop 8)
  | _ => none

/-- A string behind its opening double quote. -/
def basicString : (fuel : Nat) → List Char → Option (List Char × List Char)
  | 0, _ | _, [] => none
  | fuel + 1, c :: rest =>
    if c = '"' then some ([], rest)
    else if c = '\\' then do
      let (c, rest) ← escape rest
      let (cs, rest) ← basicString fuel rest
      return (c :: cs, rest)
    else if isPlain c then (basicString fuel rest).map fun (cs, rest) => (c :: cs, rest)
    else none

/-- A string behind its opening single quote. -/
def literalString : List Char → Option (List Char × List Char)
  | [] => none
  | c :: rest =>
    if c = '\'' then some ([], rest)
    else if isPlain c then (literalString rest).map fun (cs, rest) => (c :: cs, rest)
    else none

/-- Up to two quotes and the three that close a string of several lines. -/
def closing (quote : Char) (cs : List Char) : Option (List Char × List Char) :=
  let run := (cs.takeWhile (· == quote)).length
  if 3 ≤ run then
    let extra := min (run - 3) 2
    some (List.replicate extra quote, cs.drop (extra + 3))
  else none

/-- A string of several lines behind its opening; `escapes` tells the two kinds apart. -/
def longString (quote : Char) (escapes : Bool) :
    (fuel : Nat) → List Char → Option (List Char × List Char)
  | 0, _ | _, [] => none
  | fuel + 1, c :: rest =>
    match closing quote (c :: rest) with
    | some r => some r
    | none =>
      if escapes && c == '\\' then
        match lineBreak (skipSpace rest) with
        | some next => longString quote escapes fuel (skipBlank fuel next)
        | none => do
          let (c, rest) ← escape rest
          let (cs, rest) ← longString quote escapes fuel rest
          return (c :: cs, rest)
      else
        match lineBreak (c :: rest) with
        | some next => (longString quote escapes fuel next).map fun (cs, rest) => ('\n' :: cs, rest)
        | none =>
          if isPlain c then
            (longString quote escapes fuel rest).map fun (cs, rest) => (c :: cs, rest)
          else none

/-- The first line break of a string of several lines is not part of it. -/
def dropFirstBreak (cs : List Char) : List Char := (lineBreak cs).getD cs

/-- A string of any kind. -/
def string : List Char → Option (String × List Char)
  | '"' :: '"' :: '"' :: rest =>
    (longString '"' true (rest.length + 1) (dropFirstBreak rest)).map fun (cs, rest) =>
      (String.ofList cs, rest)
  | '\'' :: '\'' :: '\'' :: rest =>
    (longString '\'' false (rest.length + 1) (dropFirstBreak rest)).map fun (cs, rest) =>
      (String.ofList cs, rest)
  | '"' :: rest =>
    (basicString (rest.length + 1) rest).map fun (cs, rest) => (String.ofList cs, rest)
  | '\'' :: rest => (literalString rest).map fun (cs, rest) => (String.ofList cs, rest)
  | _ => none

/-- Whether a character may stand in a bare key. -/
def isKeyChar (c : Char) : Bool := c.isAlphanum || c == '-' || c == '_'

/-- One part of a key. -/
def keyPart (cs : List Char) : Option (String × List Char) :=
  match cs with
  | '"' :: rest =>
    (basicString (rest.length + 1) rest).map fun (cs, rest) => (String.ofList cs, rest)
  | '\'' :: rest => (literalString rest).map fun (cs, rest) => (String.ofList cs, rest)
  | _ =>
    let key := cs.takeWhile isKeyChar
    if key.isEmpty then none else some (String.ofList key, cs.dropWhile isKeyChar)

/-- How deep values stand in each other, and how many parts a dotted key has, at most. -/
def maxDepth : Nat := 79

/-- At most `room` parts of a dotted key; spaces around them do not count. -/
def keyParts : (room : Nat) → List Char → Option (List String × List Char)
  | 0, _ => none
  | room + 1, cs => do
    let (part, rest) ← keyPart (skipSpace cs)
    match skipSpace rest with
    | '.' :: rest =>
      let (parts, rest) ← keyParts room rest
      return (part :: parts, rest)
    | rest => return ([part], rest)

/-- A key, which may be dotted. -/
def key (cs : List Char) : Option (List String × List Char) := keyParts maxDepth cs

/-- Digits, with single underscores between them. -/
def isGrouped (isDigit : Char → Bool) : List Char → Bool
  | [] => false
  | [c] => isDigit c
  | c :: d :: rest =>
    isDigit c && (if d == '_' then isGrouped isDigit rest else isGrouped isDigit (d :: rest))

/-- The value of digits in a base. -/
def baseValue (base : Nat) (ds : List Char) : Nat :=
  ds.foldl (fun acc d => acc * base + (Bytes.hexDigit? d).getD 0) 0

/-- An integer of 64 bits. -/
def int64 (n : Int) : Option Toml :=
  if -0x8000000000000000 ≤ n ∧ n < 0x8000000000000000 then some (.integer (Int64.ofInt n)) else none

/-- An integer in a base other than ten. -/
def baseInteger (base : Nat) (ds : List Char) : Option Toml :=
  if isGrouped (fun c => (Bytes.hexDigit? c).any (· < base)) ds then
    int64 (baseValue base (ds.filter (· != '_')))
  else none

/-- Decimal digits without a needless zero in front. -/
def isDecimal (ds : List Char) : Bool :=
  isGrouped Char.isDigit ds && (ds.length == 1 || ds.head? != some '0')

/-- The value of a float; one that is too large is refused. -/
def float (negative : Bool) (cs : List Char) : Option Toml :=
  let whole := cs.takeWhile fun c : Char => c.isDigit || c == '_'
  let rest := cs.drop whole.length
  let (fraction, rest) := match rest with
    | '.' :: rest =>
      let ds := rest.takeWhile fun c : Char => c.isDigit || c == '_'
      (some ds, rest.drop ds.length)
    | rest => (none, rest)
  let power := match rest with
    | e :: ds => if e == 'e' || e == 'E' then some ds else none
    | [] => none
  let powerDigits : Option (List Char) := power.map fun ds => match ds with
    | '+' :: ds | '-' :: ds => ds
    | ds => ds
  let known := rest.isEmpty || power.isSome
  if known && (fraction.isSome || power.isSome) && isDecimal whole
      && fraction.all (isGrouped Char.isDigit) && powerDigits.all (isGrouped Char.isDigit) then
    match Number.decimalChars (cs.filter (· != '_')) with
    | some d =>
      let v := Double.ofDecimal negative d
      if v.isFinite || negative then some (.float v) else none
    | none => none
  else none

/-- A number, given all its characters. -/
def number (cs : List Char) : Option Toml :=
  match cs with
  | '0' :: 'x' :: ds => baseInteger 16 ds
  | '0' :: 'o' :: ds => baseInteger 8 ds
  | '0' :: 'b' :: ds => baseInteger 2 ds
  | _ =>
    let (negative, rest) : Bool × List Char := match cs with
      | '+' :: rest => (false, rest)
      | '-' :: rest => (true, rest)
      | rest => (false, rest)
    let word := String.ofList rest
    if word = "inf" ∨ word = "nan" then (Number.magnitude negative rest).map .float
    else if isDecimal rest then
      let n := baseValue 10 (rest.filter (· != '_'))
      int64 (if negative then -(n : Int) else n)
    else float negative rest

/-- Whether a character may stand in a number or a word. -/
def isWordChar (c : Char) : Bool := c.isAlphanum || c == '_' || c == '+' || c == '-' || c == '.'

/-- How the tables that stand under a key came to be. -/
inductive Making where
  /-- On the way to a header's table. -/
  | passed
  /-- By a dotted key. -/
  | dotted
  /-- By a header. -/
  | defined
  deriving DecidableEq

/-- A table that is being read. -/
inductive Tree where
  | leaf (v : Toml)
  | table (making : Making) (entries : List (String × Tree))

/-- The tree under a key. -/
def lookUp (key : String) : List (String × Tree) → Option Tree
  | [] => none
  | (k, t) :: rest => if key = k then some t else lookUp key rest

/-- Puts a tree under a key, in the place of what was there. -/
def putTree (key : String) (t : Tree) : List (String × Tree) → List (String × Tree)
  | [] => [(key, t)]
  | (k, old) :: rest => if key = k then (key, t) :: rest else (k, old) :: putTree key t rest

/-- Sets a key that may be dotted. -/
def setKey (v : Toml) : List String → List (String × Tree) → Option (List (String × Tree))
  | [], _ => none
  | [key], entries =>
    match lookUp key entries with
    | none => some (entries ++ [(key, .leaf v)])
    | some _ => none
  | key :: path, entries =>
    match lookUp key entries with
    | none => (setKey v path []).map fun es => entries ++ [(key, .table .dotted es)]
    | some (.table making es) =>
      if making = .dotted ∨ (making = .passed ∧ 2 ≤ path.length) then
        (setKey v path es).map fun es => putTree key (.table making es) entries
      else none
    | some (.leaf _) => none

/-- Defines the table of a header. -/
def define : List String → List (String × Tree) → Option (List (String × Tree))
  | [], _ => none
  | [key], entries =>
    match lookUp key entries with
    | none => some (entries ++ [(key, .table .defined [])])
    | some (.table .passed es) => some (putTree key (.table .defined es) entries)
    | some _ => none
  | key :: path, entries =>
    match lookUp key entries with
    | none => (define path []).map fun es => entries ++ [(key, .table .passed es)]
    | some (.table making es) =>
      (define path es).map fun es => putTree key (.table making es) entries
    | some (.leaf _) => none

/-- Sets a key in the table at the end of a header's path. -/
def setUnder (v : Toml) (key : List String) :
    List String → List (String × Tree) → Option (List (String × Tree))
  | [], entries => setKey v key entries
  | name :: path, entries =>
    match lookUp name entries with
    | some (.table making es) =>
      (setUnder v key path es).map fun es => putTree name (.table making es) entries
    | _ => none

mutual

/-- The finished value of a tree. -/
def Tree.value : Tree → Toml
  | .leaf v => v
  | .table _ entries => .table (Tree.values entries)

/-- The finished entries of a table. -/
def Tree.values : List (String × Tree) → List (String × Toml)
  | [] => []
  | (key, t) :: rest => (key, t.value) :: Tree.values rest

end

mutual

/-- A value, in which arrays and inline tables stand at most `room` deep in each other. -/
def value : (fuel room : Nat) → List Char → Option (Toml × List Char)
  | 0, _, _ => none
  | fuel + 1, room, cs =>
    match cs with
    | '[' :: rest =>
      match room with
      | 0 => none
      | room + 1 => (items fuel room rest).map fun (vs, rest) => (.array vs, rest)
    | '{' :: rest =>
      match room, skipSpace rest with
      | 0, _ => none
      | _ + 1, '}' :: rest => some (.table [], rest)
      | room + 1, rest =>
        (pairs fuel room [] rest).map fun (es, rest) => (.table (Tree.values es), rest)
    | '"' :: _ | '\'' :: _ => (string cs).map fun (s, rest) => (.text s, rest)
    | _ =>
      let word := cs.takeWhile isWordChar
      let rest := cs.dropWhile isWordChar
      if word = "true".toList then some (.boolean true, rest)
      else if word = "false".toList then some (.boolean false, rest)
      else (number word).map fun v => (v, rest)

/-- The items of an array, up to its closing bracket. -/
def items : (fuel room : Nat) → List Char → Option (List Toml × List Char)
  | 0, _, _ => none
  | fuel + 1, room, cs =>
    let cs := skipLines fuel cs
    match cs with
    | ']' :: rest => some ([], rest)
    | _ => do
      let (v, rest) ← value fuel room cs
      match skipLines fuel rest with
      | ',' :: rest =>
        let (vs, rest) ← items fuel room rest
        return (v :: vs, rest)
      | ']' :: rest => return ([v], rest)
      | _ => none

/-- The pairs of an inline table, up to its closing brace. -/
def pairs : (fuel room : Nat) → List (String × Tree) → List Char →
    Option (List (String × Tree) × List Char)
  | 0, _, _, _ => none
  | fuel + 1, room, entries, cs => do
    let (k, rest) ← key cs
    match rest with
    | '=' :: rest =>
      let (v, rest) ← value fuel room (skipSpace rest)
      let entries ← setKey v k entries
      match skipSpace rest with
      | ',' :: rest => pairs fuel room entries rest
      | '}' :: rest => return (entries, rest)
      | _ => none
    | _ => none

end

/-- The lines of a file. `path` is the header that the keys below it belong to. -/
def lines : (fuel : Nat) → (path : List String) → List (String × Tree) → List Char →
    Option (List (String × Tree))
  | 0, _, _, _ => none
  | fuel + 1, path, entries, cs =>
    match skipLines fuel cs with
    | [] => some entries
    | '[' :: rest => do
      let (header, rest) ← key rest
      match rest with
      | ']' :: rest =>
        let entries ← define header entries
        lines fuel header entries (← endOfLine rest)
      | _ => none
    | cs => do
      let (k, rest) ← key cs
      match rest with
      | '=' :: rest =>
        let (v, rest) ← value fuel maxDepth (skipSpace rest)
        let entries ← setUnder v k path entries
        lines fuel path entries (← endOfLine rest)
      | _ => none

end Reader

/-- Reads a file; a byte-order mark in front of it does not count. -/
def parse (s : String) : Option Toml :=
  let cs := match s.toList with
    | '\uFEFF' :: rest => rest
    | cs => cs
  (Reader.lines (cs.length + 1) [] [] cs).map fun entries => .table (Reader.Tree.values entries)

end Toml

end Raster
