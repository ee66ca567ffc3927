/-
# Double-precision numbers and their decimal texts

A number is kept as its 64 bits, so that reading and writing it loses nothing,
not even a NaN's payload; `toFloat` is used only to calculate.

A positive finite number is `m * 2^q` with `m < 2^53` and `-1074 ≤ q`:

| exponent field | `m` | `q` |
| --- | --- | --- |
| `0` | fraction | `-1074` |
| `e`, `1 ≤ e ≤ 2046` | `2^52 +` fraction | `e - 1075` |

Its decimal is the one with the fewest digits that reads back, the nearest of
those. Two texts show it:

| text | `1` | `0.1` | `10^21` | `10^-7` | not finite | halfway |
| --- | --- | --- | --- | --- | --- | --- |
| `plainText` | `1` | `0.1` | all digits | all digits | `inf`, `-inf`, `NaN` | up |
| `reportText` | `1.0` | `0.1` | `1e+21` | `1e-7` | `null` | to even |
-/
namespace Raster

/-- A double-precision number, as its bits. -/
structure Double where
  bits : UInt64
  deriving DecidableEq, Repr

/-- `coefficient * 10^exponent`. -/
structure Decimal where
  coefficient : Nat
  exponent : Int
  deriving DecidableEq, Repr

namespace Decimal

/-- Moves trailing zeros of the coefficient into the exponent; `fuel` bounds their number. -/
def trim : (fuel : Nat) → Decimal → Decimal
  | 0, d => d
  | fuel + 1, d =>
    if d.coefficient ≠ 0 ∧ d.coefficient % 10 = 0 then trim fuel ⟨d.coefficient / 10, d.exponent + 1⟩
    else d

/-- The digits of the coefficient. -/
def digits (d : Decimal) : String := toString d.coefficient

/-- How many places the point stands behind the first digit's left edge. -/
def point (d : Decimal) : Int := d.digits.length + d.exponent

/-- `n` zeros. -/
def zeros (n : Nat) : String := String.ofList (List.replicate n '0')

/-- Every digit written out, with a point only where a fraction needs one. -/
def positional (d : Decimal) : String :=
  let digits := d.digits
  let point := d.point
  if 0 ≤ d.exponent then digits ++ zeros d.exponent.toNat
  else if 0 < point then
    String.ofList (digits.toList.take point.toNat) ++ "."
      ++ String.ofList (digits.toList.drop point.toNat)
  else "0." ++ zeros (-point).toNat ++ digits

/-- One digit, then the others behind a point, then the power of ten with its sign. -/
def scientific (d : Decimal) : String :=
  let first := String.ofList (d.digits.toList.take 1)
  let others := String.ofList (d.digits.toList.drop 1)
  let power := d.point - 1
  first ++ (if others.isEmpty then "" else "." ++ others)
    ++ (if 0 ≤ power then "e+" else "e") ++ toString power

/-- Positional from five zeros behind the point up to sixteen digits before it, and always
with a fraction; scientific elsewhere. -/
def report (d : Decimal) : String :=
  if 0 ≤ d.exponent ∧ d.point ≤ 16 then d.positional ++ ".0"
  else if -5 < d.point ∧ d.point ≤ 16 then d.positional
  else d.scientific

end Decimal

namespace Double

/-- The number to calculate with. -/
def toFloat (d : Double) : Float := Float.ofBits d.bits

/-- The bits of a calculated number. -/
def ofFloat (f : Float) : Double := ⟨f.toBits⟩

/-- The number `1`. -/
def one : Double := ⟨0x3ff0000000000000⟩

/-- The number `0`. -/
def zero : Double := ⟨0⟩

/-- The sign bit, `2^63`. -/
def signBit : Nat := 0x8000000000000000

/-- The number `2^52` that a normal significand starts from. -/
def hiddenBit : Nat := 0x10000000000000

/-- Whether the sign bit is set. -/
def isNegative (d : Double) : Bool := decide (signBit ≤ d.bits.toNat)

/-- The eleven exponent bits. -/
def exponentField (d : Double) : Nat := d.bits.toNat / hiddenBit % 2048

/-- The 52 fraction bits. -/
def fraction (d : Double) : Nat := d.bits.toNat % hiddenBit

/-- Whether the number is neither infinite nor a NaN. -/
def isFinite (d : Double) : Bool := d.exponentField != 2047

/-- Whether the number is a NaN. -/
def isNaN (d : Double) : Bool := d.exponentField == 2047 && d.fraction != 0

/-- `m` of `m * 2^q`. -/
def significand (d : Double) : Nat :=
  if d.exponentField = 0 then d.fraction else hiddenBit + d.fraction

/-- `q` of `m * 2^q`. -/
def scale (d : Double) : Int :=
  if d.exponentField = 0 then -1074 else (d.exponentField : Int) - 1075

/-- The number nearest to `num / den`, a tie going to the even significand; infinite when
no finite number is near enough. -/
def ofRatio (negative : Bool) (num den : Nat) : Double :=
  let sign := if negative then signBit else 0
  if num = 0 then ⟨UInt64.ofNat sign⟩
  else
    -- the quotient of the scaled numbers has 53 or 54 bits
    let q : Int := max (-1074) ((num.log2 : Int) - den.log2 - 53)
    let m₀ := (num <<< (-q).toNat) / (den <<< q.toNat)
    -- 54 bits: one place further up
    let q : Int := if 2 * hiddenBit ≤ m₀ then q + 1 else q
    let top := num <<< (-q).toNat
    let bottom := den <<< q.toNat
    let m := top / bottom
    let rest := 2 * (top % bottom)
    let m := if bottom < rest ∨ (rest = bottom ∧ m % 2 = 1) then m + 1 else m
    let magnitude := (q + 1074).toNat * hiddenBit + m
    ⟨UInt64.ofNat (sign + min magnitude (2047 * hiddenBit))⟩

/-- The number nearest to `coefficient * 10^exponent`. -/
def ofDecimal (negative : Bool) (d : Decimal) : Double :=
  -- far outside the range only the sign is left
  let point := d.point
  if d.coefficient = 0 ∨ point < -400 then ofRatio negative 0 1
  else if 400 < point then ofRatio negative (1 <<< 1024) 1
  else ofRatio negative (d.coefficient * Nat.pow 10 d.exponent.toNat) (Nat.pow 10 (-d.exponent).toNat)

/-- `⌊log10 (num / den)⌋`, corrected from an estimate by at most two steps. -/
def decimalExponent (num den : Nat) : Int :=
  let estimate : Int := (((num.log2 : Int) - den.log2) * 30103).fdiv 100000 - 1
  let reaches (e : Int) : Bool := decide (den * Nat.pow 10 e.toNat ≤ num * Nat.pow 10 (-e).toNat)
  if reaches (estimate + 2) then estimate + 2
  else if reaches (estimate + 1) then estimate + 1
  else if reaches estimate then estimate
  else estimate - 1

/-- Which of two decimals a number right between them takes. -/
inductive Halfway where
  | up
  /-- The one whose last digit is even. -/
  | toEven
  deriving DecidableEq, Repr

/-- The fewest digits that read back as `m * 2^q`, the nearest of those. -/
def shortest (halfway : Halfway) (m : Nat) (q : Int) : Decimal :=
  -- everything in quarters of the last place
  let lift (x : Nat) : Nat := x <<< (q - 2).toNat
  let den := 1 <<< (2 - q).toNat
  let value := lift (4 * m)
  let low := lift (if m = hiddenBit ∧ -1074 < q then 4 * m - 1 else 4 * m - 2)
  let high := lift (4 * m + 2)
  let lead := decimalExponent value den
  let inside (c : Nat) (e : Int) : Bool :=
    let c := c * Nat.pow 10 e.toNat * den
    let unit := Nat.pow 10 (-e).toNat
    if m % 2 = 0 then decide (low * unit ≤ c) && decide (c ≤ high * unit)
    else decide (low * unit < c) && decide (c < high * unit)
  let candidate (n : Nat) : Option Decimal :=
    let e : Int := lead - n + 1
    let top := value * Nat.pow 10 (-e).toNat
    let bottom := den * Nat.pow 10 e.toNat
    let below := top / bottom
    let rest := 2 * (top % bottom)
    match inside below e, inside (below + 1) e with
    | true, false => some ⟨below, e⟩
    | false, true => some ⟨below + 1, e⟩
    | true, true =>
      some (if rest < bottom ∨ (rest = bottom ∧ halfway = .toEven ∧ below % 2 = 0) then ⟨below, e⟩
        else ⟨below + 1, e⟩)
    | false, false => none
  match (List.range 17).findSome? fun n => candidate (n + 1) with
  | some d => d.trim 20
  | none => ⟨m, q⟩

/-- The decimal of the number's magnitude. -/
def toDecimal (halfway : Halfway) (d : Double) : Decimal :=
  if d.significand = 0 then ⟨0, 0⟩ else shortest halfway d.significand d.scale

/-- Every digit written out; never an exponent. -/
def plainText (d : Double) : String :=
  if d.isNaN then "NaN"
  else
    (if d.isNegative then "-" else "")
      ++ (if d.isFinite then (d.toDecimal .up).positional else "inf")

/-- The number in a report: always with a fraction or an exponent, `null` where there is no
number to show. -/
def reportText (d : Double) : String :=
  if d.isFinite then (if d.isNegative then "-" else "") ++ (d.toDecimal .toEven).report
  else "null"

end Double

end Raster
