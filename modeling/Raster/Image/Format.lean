/-
# Band formats, codings and interpretations

What one sample is, how a pixel is packed, and how its bands are to be
understood.

| band format | index | bytes | range of an integer sample |
| --- | ---: | ---: | --- |
| `uchar`, `char` | 0, 1 | 1 | `0..255`, `-128..127` |
| `ushort`, `short` | 2, 3 | 2 | `0..65535`, `-32768..32767` |
| `uint`, `int` | 4, 5 | 4 | `0..2^32-1`, `-2^31..2^31-1` |
| `float`, `complex` | 6, 7 | 4, 8 | |
| `double`, `dpcomplex` | 8, 9 | 8, 16 | |

Names are looked up without regard to ASCII case.
-/
import Raster.Text

namespace Raster

/-- The numeric format of one band of one pixel. -/
inductive BandFormat where
  | uchar
  | char
  | ushort
  | short
  | uint
  | int
  | float
  | complex
  | double
  | dpcomplex
  deriving DecidableEq, Repr

namespace BandFormat

/-- Every format, in the order of promotion tables. -/
def all : List BandFormat :=
  [uchar, char, ushort, short, uint, int, float, complex, double, dpcomplex]

/-- The place of a format in a promotion table. -/
def index : BandFormat → Nat
  | uchar => 0
  | char => 1
  | ushort => 2
  | short => 3
  | uint => 4
  | int => 5
  | float => 6
  | complex => 7
  | double => 8
  | dpcomplex => 9

/-- The format at a place of a promotion table. -/
def ofIndex? (i : Nat) : Option BandFormat := all[i]?

/-- A format is known by its place in the table. -/
@[simp] theorem ofIndex?_index (f : BandFormat) : ofIndex? f.index = some f := by
  cases f <;> rfl

/-- Bytes of one sample. -/
def size : BandFormat → Nat
  | uchar | char => 1
  | ushort | short => 2
  | uint | int | float => 4
  | complex | double => 8
  | dpcomplex => 16

/-- No sample is empty. -/
theorem size_pos (f : BandFormat) : 0 < f.size := by cases f <;> decide

/-- Whether a sample has eight bits. -/
def is8Bit : BandFormat → Bool
  | uchar | char => true
  | _ => false

/-- Whether samples are integers. -/
def isInt : BandFormat → Bool
  | uchar | char | ushort | short | uint | int => true
  | _ => false

/-- Whether a sample is a pair of numbers. -/
def isComplex : BandFormat → Bool
  | complex | dpcomplex => true
  | _ => false

/-- Whether samples are unsigned or signed 16-bit integers. -/
def is16Bit : BandFormat → Bool
  | ushort | short => true
  | _ => false

/-- Bits of an integer sample, `0` for the other formats. -/
def bits (f : BandFormat) : Nat := if f.isInt then f.size * 8 else 0

/-- Bytes of one number of a sample: half of a complex sample, else all of it. -/
def componentSize (f : BandFormat) : Nat := if f.isComplex then f.size / 2 else f.size

/-- The least and greatest value of an integer format. -/
def range : BandFormat → Option (Int × Int)
  | uchar => some (0, 255)
  | char => some (-128, 127)
  | ushort => some (0, 65535)
  | short => some (-32768, 32767)
  | uint => some (0, 4294967295)
  | int => some (-2147483648, 2147483647)
  | _ => none

/-- The name of a format. -/
def name : BandFormat → String
  | uchar => "uchar"
  | char => "char"
  | ushort => "ushort"
  | short => "short"
  | uint => "uint"
  | int => "int"
  | float => "float"
  | complex => "complex"
  | double => "double"
  | dpcomplex => "dpcomplex"

/-- The format of a name. -/
def ofName? (s : String) : Option BandFormat := all.find? fun f => f.name == Text.lower s

end BandFormat

/-- How the bytes of a pixel are packed; a coded image has four `uchar` bands. -/
inductive Coding where
  /-- Plain samples. -/
  | none
  /-- Lab with 10 bits of lightness and 11 bits each of `a` and `b`. -/
  | labq
  /-- Three mantissas and a shared exponent. -/
  | rad
  deriving DecidableEq, Repr

namespace Coding

/-- Every coding, in the order of its code. -/
def all : List Coding := [none, labq, rad]

/-- The name of a coding. -/
def name : Coding → String
  | none => "none"
  | labq => "labq"
  | rad => "rad"

/-- The coding of a name. -/
def ofName? (s : String) : Option Coding := all.find? fun c => c.name == Text.lower s

end Coding

/-- How the bands of an image should be understood. -/
inductive Interpretation where
  | multiband
  | bw
  | grey16
  | histogram
  | fourier
  | matrix
  | xyz
  | lab
  | labq
  | labs
  | lch
  | cmc
  | yxy
  | hsv
  | cmyk
  | rgb
  | srgb
  | scrgb
  | rgb16
  deriving DecidableEq, Repr

namespace Interpretation

/-- Every interpretation. -/
def all : List Interpretation :=
  [multiband, bw, grey16, histogram, fourier, matrix, xyz, lab, labq, labs, lch, cmc, yxy, hsv,
    cmyk, rgb, srgb, scrgb, rgb16]

/-- The name of an interpretation. -/
def name : Interpretation → String
  | multiband => "multiband"
  | bw => "b-w"
  | grey16 => "grey16"
  | histogram => "histogram"
  | fourier => "fourier"
  | matrix => "matrix"
  | xyz => "xyz"
  | lab => "lab"
  | labq => "labq"
  | labs => "labs"
  | lch => "lch"
  | cmc => "cmc"
  | yxy => "yxy"
  | hsv => "hsv"
  | cmyk => "cmyk"
  | rgb => "rgb"
  | srgb => "srgb"
  | scrgb => "scrgb"
  | rgb16 => "rgb16"

/-- The interpretation of a name. -/
def ofName? (s : String) : Option Interpretation := all.find? fun i => i.name == Text.lower s

/-- How many bands carry colour, alpha not counted. -/
def colourBands : Interpretation → Option UInt32
  | bw | grey16 => some 1
  | cmyk => some 4
  | xyz | lab | labs | lch | cmc | yxy | hsv | rgb | srgb | scrgb | rgb16 => some 3
  | _ => Option.none

end Interpretation

end Raster
