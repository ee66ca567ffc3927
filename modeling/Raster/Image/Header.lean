/-
# The shape of an image's pixels

A header says how many pixels there are and what each is made of. Pixels are
packed band by band, row after row, so a row has `lineSize` bytes and the whole
image `imageSize`. Sizes are 64-bit words; `checkedImageSize` answers only where
none of them wraps.

An interpretation that cannot belong to the shape is replaced by a guess from
bands and format:

| format | one or two bands | three or four | more |
| --- | --- | --- | --- |
| complex | `fourier` | `fourier` | `fourier` |
| 16-bit | `grey16` | `rgb16` | `rgb16` |
| other | `bw` | `srgb` | `multiband` |
-/
import Raster.Double
import Raster.Image.Format

namespace Raster

/-- The shape of an image's pixels; resolutions are in pixels per millimetre. -/
structure Header where
  width : UInt32
  height : UInt32
  bands : UInt32
  format : BandFormat
  coding : Coding := .none
  interpretation : Interpretation
  xres : Double := .one
  yres : Double := .one
  deriving DecidableEq, Repr

namespace Header

/-- The greatest width, height or band count that a header from outside may have. -/
def maxDimension : UInt32 := 10000000

/-- A coded shape: four `uchar` bands a pixel. -/
def coded (width height : UInt32) (coding : Coding) : Header :=
  { width, height, bands := 4, format := .uchar, coding,
    interpretation := match coding with
      | .labq => .labq
      | _ => .srgb }

/-- Bytes of a pixel. -/
def pixelSize (h : Header) : UInt64 := h.bands.toUInt64 * UInt64.ofNat h.format.size

/-- Bytes of a row. -/
def lineSize (h : Header) : UInt64 := h.pixelSize * h.width.toUInt64

/-- Bytes of the whole image. -/
def imageSize (h : Header) : UInt64 := h.lineSize * h.height.toUInt64

/-- Bytes of a pixel, as a number. -/
def pixelBytes (h : Header) : Nat := h.bands.toNat * h.format.size

/-- Bytes of a row, as a number. -/
def lineBytes (h : Header) : Nat := h.pixelBytes * h.width.toNat

/-- Bytes of the whole image, as a number. -/
def imageBytes (h : Header) : Nat := h.lineBytes * h.height.toNat

/-- The product of two words, if it is a word. -/
def checkedMul (a b : UInt64) : Option UInt64 :=
  if a.toNat * b.toNat < UInt64.size then some (a * b) else none

/-- The sum of two words, if it is a word. -/
def checkedAdd (a b : UInt64) : Option UInt64 :=
  if a.toNat + b.toNat < UInt64.size then some (a + b) else none

/-- Bytes of the whole image, unless a dimension is above the cap or a size does not fit. -/
def checkedImageSize (h : Header) : Option UInt64 :=
  if maxDimension < h.width ∨ maxDimension < h.height ∨ maxDimension < h.bands then none
  else do
    let pixel ← checkedMul h.bands.toUInt64 (UInt64.ofNat h.format.size)
    let line ← checkedMul pixel h.width.toUInt64
    checkedMul line h.height.toUInt64

/-- Whether pixels of `other` can stand in for pixels of `h`. -/
def isCompatible (h other : Header) : Bool :=
  h.width == other.width && h.height == other.height && h.bands == other.bands
    && h.coding == other.coding && h.format == other.format

/-- Whether the interpretation can belong to the shape. -/
def interpretationFits (h : Header) : Bool :=
  match h.coding with
  | .labq => h.interpretation == .labq
  | .rad => h.interpretation == .srgb
  | .none =>
    match h.interpretation with
    | .multiband | .bw => true
    | .grey16 => h.format.is16Bit
    | .rgb16 => h.format.is16Bit && 3 ≤ h.bands
    | .histogram => h.height == 1 || h.width == 1
    | .fourier => h.format.isComplex
    | .matrix => h.bands == 1
    | .labq => false
    | .labs => h.format == .short && 3 ≤ h.bands
    | .cmyk => 4 ≤ h.bands
    | .scrgb | .xyz | .lab => 3 ≤ h.bands && !h.format.is8Bit
    | .lch | .cmc | .yxy | .hsv | .rgb | .srgb => 3 ≤ h.bands

/-- The interpretation that bands and format suggest. -/
def defaultInterpretation (h : Header) : Interpretation :=
  match h.coding with
  | .labq => .labq
  | .rad => .srgb
  | .none =>
    if h.format.isComplex then .fourier
    else if h.format.is16Bit then (if 3 ≤ h.bands then .rgb16 else .grey16)
    else if 4 < h.bands then .multiband
    else if 3 ≤ h.bands then .srgb
    else .bw

/-- The interpretation, or the suggested one where it cannot be right. -/
def guessInterpretation (h : Header) : Interpretation :=
  if h.interpretationFits then h.interpretation else h.defaultInterpretation

/-- Whether the last band is alpha. -/
def hasAlpha (h : Header) : Bool :=
  let guess := h.guessInterpretation
  (h.bands == 2 && (guess == .bw || guess == .grey16)) || (h.bands == 4 && guess != .cmyk)
    || 4 < h.bands

/-- The alpha sample of an opaque pixel. -/
def maxAlpha (h : Header) : Float :=
  match h.guessInterpretation with
  | .grey16 | .rgb16 => 65535.0
  | .scrgb => 1.0
  | _ => 255.0

/-- One line about the shape, such as `640x480 uchar, 3 bands, srgb`. -/
def describe (h : Header) : String :=
  s!"{h.width}x{h.height} {h.format.name}, {h.bands} band"
    ++ (if h.bands = 1 then "" else "s") ++ ", " ++ h.interpretation.name
    ++ (if h.coding = .none then "" else ", " ++ h.coding.name ++ " coded")

end Header

end Raster
