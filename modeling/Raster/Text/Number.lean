/-
# Numbers in text

| grammar | accepted | fault |
| --- | --- | --- |
| unsigned | optional `+`, ASCII digits | `empty`, `invalidDigit`, `tooLarge` |
| signed | optional `+` or `-`, ASCII digits | the same and `tooSmall` |
| decimal | optional sign, digits with an optional point and power of ten, or `inf`, `infinity`, `nan` in any case | `emptyDecimal`, `invalidDecimal` |

Digits are read left to right and the first fault met is the one reported, so a
value that grows past its limit is `tooLarge` even when garbage follows.
-/
import Raster.Double
import Raster.Text

namespace Raster

/-- Why a text is not a number. -/
inductive NumberFault where
  | empty
  | invalidDigit
  | tooLarge
  | tooSmall
  | emptyDecimal
  | invalidDecimal
  deriving DecidableEq, Repr

/-- The words for a fault. -/
def NumberFault.message : NumberFault → String
  | .empty => "cannot parse integer from empty string"
  | .invalidDigit => "invalid digit found in string"
  | .tooLarge => "number too large to fit in target type"
  | .tooSmall => "number too small to fit in target type"
  | .emptyDecimal => "cannot parse float from empty string"
  | .invalidDecimal => "invalid float literal"

namespace Number

/-- The value of an ASCII digit. -/
def digit? (c : Char) : Option Nat := if c.isDigit then some (c.toNat - 48) else none

/-- Reads digits behind `acc`, refusing values above `limit`. -/
def digits (limit : Nat) (excess : NumberFault) (acc : Nat) : List Char → Except NumberFault Nat
  | [] => .ok acc
  | c :: rest =>
    match digit? c with
    | none => .error .invalidDigit
    | some d => if limit < acc * 10 + d then .error excess else digits limit excess (acc * 10 + d) rest

/-- Reads an unsigned number of at most `limit`. -/
def unsignedChars (limit : Nat) : List Char → Except NumberFault Nat
  | [] => .error .empty
  | ['+'] => .error .invalidDigit
  | '+' :: rest => digits limit .tooLarge 0 rest
  | cs => digits limit .tooLarge 0 cs

/-- Reads an unsigned number of at most `limit`. -/
def unsigned (limit : Nat) (s : String) : Except NumberFault Nat := unsignedChars limit s.toList

/-- Reads a signed number of at least `-limit - 1` and at most `limit`. -/
def signed (limit : Nat) (s : String) : Except NumberFault Int :=
  match s.toList with
  | [] => .error .empty
  | ['+'] | ['-'] => .error .invalidDigit
  | '+' :: rest => (digits limit .tooLarge 0 rest).map Int.ofNat
  | '-' :: rest => (digits (limit + 1) .tooSmall 0 rest).map fun n => -(n : Int)
  | cs => (digits limit .tooLarge 0 cs).map Int.ofNat

/-- An 8-bit unsigned number. -/
def byte (s : String) : Except NumberFault UInt8 := (unsigned (UInt8.size - 1) s).map UInt8.ofNat

/-- A 32-bit unsigned number. -/
def word32 (s : String) : Except NumberFault UInt32 := (unsigned (UInt32.size - 1) s).map UInt32.ofNat

/-- A 64-bit unsigned number. -/
def word64 (s : String) : Except NumberFault UInt64 := (unsigned (UInt64.size - 1) s).map UInt64.ofNat

/-- A 64-bit signed number. -/
def int64 (s : String) : Except NumberFault Int64 := (signed 0x7fffffffffffffff s).map Int64.ofInt

/-- The number that a list of digits stands for. -/
def digitsValue (cs : List Char) : Nat :=
  cs.foldl (fun acc c => acc * 10 + (c.toNat - 48)) 0

/-- The power of ten behind a number: an `e`, an optional sign and digits, or nothing. -/
def power : List Char → Option Int
  | [] => some 0
  | e :: rest =>
    if e = 'e' ∨ e = 'E' then
      let (negative, ds) := match rest with
        | '-' :: ds => (true, ds)
        | '+' :: ds => (false, ds)
        | ds => (false, ds)
      if ds.isEmpty || !ds.all Char.isDigit then none
      else some (if negative then -(digitsValue ds : Int) else digitsValue ds)
    else none

/-- Digits with an optional point and power of ten, at least one digit beside the point. -/
def decimalChars (cs : List Char) : Option Decimal :=
  let whole := cs.takeWhile Char.isDigit
  let rest := cs.dropWhile Char.isDigit
  let (fraction, rest) := match rest with
    | '.' :: rest => (rest.takeWhile Char.isDigit, rest.dropWhile Char.isDigit)
    | rest => ([], rest)
  if whole.isEmpty && fraction.isEmpty then none
  else
    (power rest).map fun p => ⟨digitsValue (whole ++ fraction), p - fraction.length⟩

/-- The magnitude and sign of a number text without its sign. -/
def magnitude (negative : Bool) (cs : List Char) : Option Double :=
  let word := String.ofList (cs.map Char.toLower)
  let sign : UInt64 := if negative then 0x8000000000000000 else 0
  if word = "inf" ∨ word = "infinity" then some ⟨sign ||| 0x7ff0000000000000⟩
  else if word = "nan" then some ⟨sign ||| 0x7ff8000000000000⟩
  else (decimalChars cs).map (Double.ofDecimal negative)

/-- A decimal number, rounded to the nearest double. -/
def double (s : String) : Except NumberFault Double :=
  let read : Option Double := match s.toList with
    | '-' :: cs => magnitude true cs
    | '+' :: cs => magnitude false cs
    | cs => magnitude false cs
  match read with
  | some d => .ok d
  | none => .error (if s.isEmpty then .emptyDecimal else .invalidDecimal)

end Number

end Raster
