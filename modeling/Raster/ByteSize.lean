/-
# Byte counts in text

| text | bytes |
| --- | --- |
| `4096`, `4096b` | as written |
| `7k`, `7 KB` | times 2^10 |
| `100m` | times 2^20 |
| `1g` | times 2^30 |

A count is shown with the largest unit that divides it. A product of 2^64 or more
is refused, never wrapped.
-/
import Raster.Text.Number

namespace Raster

/-- A number of bytes. -/
structure ByteSize where
  bytes : UInt64
  deriving DecidableEq, Repr

namespace ByteSize

/-- The units, largest first. -/
def units : List (Char × Nat) := [('g', 1073741824), ('m', 1048576), ('k', 1024)]

/-- The digits in front of a unit, and what the unit stands for. -/
def splitUnit (cs : List Char) : List Char × Nat :=
  match cs.getLast? with
  | none => (cs, 1)
  | some c =>
    match units.find? fun u => u.1 == c with
    | some (_, scale) => (cs.dropLast, scale)
    | none => (cs, 1)

/-- Reads a count. -/
def parse (s : String) : Except String ByteSize :=
  let cs := (Text.trimChars s.toList).map Char.toLower
  let cs := if cs.getLast? = some 'b' then cs.dropLast else cs
  if cs.isEmpty then .error "empty size"
  else
    let (digits, scale) := splitUnit cs
    match Number.unsignedChars (UInt64.size - 1) (Text.trimChars digits) with
    | .error _ => .error s!"\"{s}\" is not a size"
    | .ok n =>
      if n * scale < UInt64.size then .ok ⟨UInt64.ofNat (n * scale)⟩
      else .error s!"\"{s}\" is too large"

/-- Shows a count with the largest unit that divides it. -/
def text (size : ByteSize) : String :=
  let n := size.bytes.toNat
  match units.find? fun u => u.2 ≤ n && n % u.2 == 0 with
  | some (unit, scale) => toString (n / scale) ++ String.singleton unit
  | none => toString n

end ByteSize

end Raster
