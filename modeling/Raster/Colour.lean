/-
# Colour spaces

Conversions between colour spaces by formula; embedded profiles are not
consulted. Every conversion goes through linear RGB with sRGB primaries:

| space | to linear RGB |
| --- | --- |
| `bw`, `grey16` | one curve for all three |
| `srgb`, `rgb`, `rgb16` | the sRGB curve for each |
| `xyz` | a matrix, `100` is white |
| `lab` | cube-root curves, then as `xyz` |
| `cmyk` | `(1 - c)(1 - k)`, then as `srgb` |
| `scrgb` | already linear |

Bands behind the colour bands are taken for alpha and rescaled to the target's
range. With more of them than a word can count behind its colour there is no result.
-/
import Raster.CubeRoot
import Raster.Image.Packed

namespace Raster

/-- The colour services that a save needs. -/
structure ColourEngine (ι : Type) where
  /-- Converts to a space and keeps any alpha. -/
  colourspace : Image ι → Interpretation → Except Error (Image ι)
  /-- Imports CMYK, through the embedded profile where that is asked for and there is one. -/
  importProfile : Image ι → (embedded : Bool) → Except Error (Image ι)
  /-- Exports to CMYK of a number of bits a sample. -/
  exportProfile : Image ι → (depth : UInt32) → Except Error (Image ι)

namespace Colour

/-- Three numbers: red, green and blue, or `X`, `Y` and `Z`. -/
structure Triple where
  x : Float
  y : Float
  z : Float

/-- Applies a function to each number. -/
def Triple.map (t : Triple) (f : Float → Float) : Triple := ⟨f t.x, f t.y, f t.z⟩

/-- The numbers in order. -/
def Triple.toList (t : Triple) : List Float := [t.x, t.y, t.z]

/-- Linear RGB to XYZ, white at `1`. -/
def toXyz (t : Triple) : Triple where
  x := 0.412453 * t.x + 0.357580 * t.y + 0.180423 * t.z
  y := 0.212671 * t.x + 0.715160 * t.y + 0.072169 * t.z
  z := 0.019334 * t.x + 0.119193 * t.y + 0.950227 * t.z

/-- XYZ, white at `1`, to linear RGB. -/
def ofXyz (t : Triple) : Triple where
  x := 3.240479 * t.x + (-1.537150) * t.y + (-0.498535) * t.z
  y := (-0.969256) * t.x + 1.875991 * t.y + 0.041556 * t.z
  z := 0.055648 * t.x + (-0.204043) * t.y + 1.057311 * t.z

/-- The `X` of white. -/
def whiteX : Float := 0.950456

/-- The `Z` of white. -/
def whiteZ : Float := 1.088754

/-- A display value in `0..1` as linear light. -/
def linearise (v : Float) : Float :=
  if v ≤ 0.04045 then v / 12.92 else ((v + 0.055) / 1.055).pow 2.4

/-- Linear light as a display value. -/
def delinearise (v : Float) : Float :=
  if v ≤ 0.04045 / 12.92 then v * 12.92
  else 1.055 * (Packed.larger v 0.0).pow (1.0 / 2.4) - 0.055

/-- The lightness curve of Lab. -/
def labCurve (t : Float) : Float :=
  if 0.008856 < t then (Double.ofFloat t).cbrt.toFloat else 7.787 * t + 16.0 / 116.0

/-- Back from the lightness curve. -/
def labCurveBack (t : Float) : Float :=
  if 0.206893 < t then t * t * t else (t - 16.0 / 116.0) / 7.787

/-- The spaces that can be read and written. -/
def supports : Interpretation → Bool
  | .bw | .grey16 | .srgb | .rgb | .rgb16 | .scrgb | .xyz | .lab | .cmyk => true
  | _ => false

/-- The sample of full intensity. -/
def white (space : Interpretation) (f : BandFormat) : Float :=
  match space with
  | .grey16 | .rgb16 => 65535.0
  | .cmyk => if f.is16Bit then 65535.0 else 255.0
  | _ => 255.0

/-- The alpha sample of an opaque pixel. -/
def alphaMax : Interpretation → Float
  | .grey16 | .rgb16 => 65535.0
  | .scrgb => 1.0
  | _ => 255.0

/-- The linear light of a pixel's samples, and the samples behind its colour bands. -/
def toLinear (space : Interpretation) (scale : Float) : List Float → Option (Triple × List Float)
  | v =>
    match space, v with
    | .bw, a :: rest | .grey16, a :: rest =>
      let l := linearise (a / scale)
      some (⟨l, l, l⟩, rest)
    | .srgb, a :: b :: c :: rest | .rgb, a :: b :: c :: rest | .rgb16, a :: b :: c :: rest =>
      some (⟨linearise (a / scale), linearise (b / scale), linearise (c / scale)⟩, rest)
    | .xyz, a :: b :: c :: rest => some (ofXyz ⟨a / 100.0, b / 100.0, c / 100.0⟩, rest)
    | .lab, l :: a :: b :: rest =>
      let fy := (l + 16.0) / 116.0
      let fx := a / 500.0 + fy
      let fz := fy - b / 200.0
      some (ofXyz ⟨labCurveBack fx * whiteX, labCurveBack fy, labCurveBack fz * whiteZ⟩, rest)
    | .cmyk, c :: m :: y :: k :: rest =>
      let light := 1.0 - k / scale
      some (⟨linearise ((1.0 - c / scale) * light), linearise ((1.0 - m / scale) * light),
        linearise ((1.0 - y / scale) * light)⟩, rest)
    | _, a :: b :: c :: rest => some (⟨a, b, c⟩, rest)
    | _, _ => none

/-- The samples of linear light in a space. -/
def ofLinear (space : Interpretation) (scale : Float) (rgb : Triple) : List Float :=
  match space with
  | .bw | .grey16 => [delinearise (toXyz rgb).y * scale]
  | .srgb | .rgb | .rgb16 => rgb.toList.map fun c => delinearise c * scale
  | .xyz => (toXyz rgb).toList.map (· * 100.0)
  | .lab =>
    let xyz := toXyz rgb
    let fx := labCurve (xyz.x / whiteX)
    let fy := labCurve xyz.y
    let fz := labCurve (xyz.z / whiteZ)
    [116.0 * fy - 16.0, 500.0 * (fx - fy), 200.0 * (fy - fz)]
  | .cmyk =>
    let shown := rgb.map fun c => Sample.clamp 0.0 1.0 (delinearise c)
    let k := 1.0 - Packed.larger (Packed.larger shown.x shown.y) shown.z
    if 1.0 ≤ k then [0.0, 0.0, 0.0, scale]
    else
      (shown.map fun c => (1.0 - c - k) / (1.0 - k)).toList.map (· * scale) ++ [k * scale]
  | _ => rgb.toList

/-- The format of samples in a space. -/
def targetFormat (space : Interpretation) (sixteen : Bool) : BandFormat :=
  match space with
  | .grey16 | .rgb16 => .ushort
  | .cmyk => if sixteen then .ushort else .uchar
  | .bw | .srgb | .rgb => .uchar
  | _ => .float

/-- The space that a shape's samples are read in: the guessed one where it is supported. -/
def sourceSpace (h : Header) : Interpretation :=
  let guess := h.guessInterpretation
  if supports guess then guess else if 3 ≤ h.bands then .srgb else .bw

/-- One pixel converted, its alpha bands rescaled. -/
def convertPixel (source target : Interpretation) (f out : BandFormat) (alphaScale : Float)
    (pixel : Bytes) : Option Bytes := do
  let (rgb, alpha) ← toLinear source (white source f) (f.readAll pixel)
  let values := ofLinear target (white target out) rgb ++ alpha.map (· * alphaScale)
  return values.flatMap fun v => out.write (Sample.roundFor out v)

/-- Converts an image to a space; one that is there already is only relabelled. -/
def convert {ι : Type} (image : Image ι) (target : Interpretation) (sixteen : Bool) :
    Except Error (Image ι) := do
  let image ← image.decode
  let h := image.header
  let source := sourceSpace h
  if !supports target then throw (.colour s!"cannot convert to {target.name}")
  let out := targetFormat target sixteen
  if source = target ∧ h.format = out then return image.withInterpretation target
  let inBands := source.colourBands.getD 1
  let outBands := target.colourBands.getD 1
  if h.bands < inBands then
    throw (.colour s!"{source.name} image needs {inBands} bands, has {h.bands}")
  let bands ← checkedSum outBands (h.bands - inBands)
  let shape := { h with bands, format := out, coding := .none, interpretation := target }
  return image.map shape
    (convertPixel source target h.format out (alphaMax target / h.maxAlpha))

/-- The engine that works by formula. -/
def basic {ι : Type} : ColourEngine ι where
  colourspace image target := convert image target false
  importProfile image _ := convert image .xyz false
  exportProfile image depth :=
    if depth = 8 ∨ depth = 16 then convert image .cmyk (depth == 16)
    else .error (.badOption "depth" s!"{depth} is not 8 or 16")

end Colour

end Raster
