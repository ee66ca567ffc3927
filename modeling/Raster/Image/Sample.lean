/-
# Reading and writing samples

Samples are in machine byte order. A complex sample is a pair, real part first;
reading takes the real part and writing leaves the imaginary part zero.

Writing to an integer format cuts the fraction off and clamps to the format's
range; a NaN becomes zero.
-/
import Raster.Bytes
import Raster.Image.Header

namespace Raster

namespace BandFormat

/-- The bytes as a two's complement number. -/
def signedOf (bytes : Bytes) : Int := Int.bmod (ByteOrder.machine.decode bytes) (Nat.pow 256 bytes.length)

/-- The single-precision number in four bytes. -/
def singleOf (bytes : Bytes) : Float :=
  (Float32.ofBits (ByteOrder.machine.get32 bytes)).toFloat

/-- The number in the bytes of one sample. -/
def read (f : BandFormat) (bytes : Bytes) : Float :=
  match f with
  | .uchar | .ushort | .uint => Float.ofNat (ByteOrder.machine.decode (bytes.take f.size))
  | .char | .short | .int => Float.ofInt (signedOf (bytes.take f.size))
  | .float | .complex => singleOf (bytes.take 4)
  | .double | .dpcomplex => Float.ofBits (ByteOrder.machine.get64 (bytes.take 8))

/-- The integer nearest towards zero, clamped to a range; `0` or the least value for a NaN. -/
def clampTo (least greatest : Int) (v : Float) : Int :=
  if v.isNaN then max least 0
  else if v < Float.ofInt least then least
  else if Float.ofInt greatest < v then greatest
  else v.toInt64.toInt

/-- The bytes of one sample. -/
def write (f : BandFormat) (v : Float) : Bytes :=
  match f.range with
  | some (least, greatest) =>
    ByteOrder.machine.encode f.size ((clampTo least greatest v) % (Nat.pow 256 f.size : Nat)).toNat
  | none =>
    match f with
    | .double => ByteOrder.machine.put64 v.toBits
    | .dpcomplex => ByteOrder.machine.put64 v.toBits ++ ByteOrder.machine.put64 0
    | .complex => ByteOrder.machine.put32 v.toFloat32.toBits ++ ByteOrder.machine.put32 0
    | _ => ByteOrder.machine.put32 v.toFloat32.toBits

/-- A sample takes the bytes of its format, whatever its value. -/
@[simp] theorem length_write (f : BandFormat) (v : Float) : (f.write v).length = f.size := by
  cases f <;> simp [write, range, size]

/-- The samples of one pixel. -/
def readAll (f : BandFormat) (pixel : Bytes) : List Float := (pixel.chunks f.size).map f.read

/-- Reverses the bytes of every number in packed samples, which changes their byte order. -/
def swapSamples (f : BandFormat) (bytes : Bytes) : Bytes :=
  let width := f.componentSize
  if width ≤ 1 then bytes
  else
    let whole := bytes.length / width * width
    ((bytes.chunks width).map List.reverse).flatten ++ bytes.drop whole

/-- The NaN that stands for all of them, as a number of four or eight bytes. -/
def quietNaN (width : Nat) : Bytes :=
  ByteOrder.machine.encode width (if width = 4 then 0x7fc00000 else 0x7ff8000000000000)

/-- Packed samples with every NaN spelled the same way. -/
def canonical (f : BandFormat) (bytes : Bytes) : Bytes :=
  if f.isInt then bytes
  else
    let number : BandFormat := if f.componentSize = 4 then .float else .double
    (bytes.chunks number.size).flatMap fun b =>
      if (number.read b).isNaN then quietNaN number.size else b

end BandFormat

end Raster
