/-
# Flattening, band extraction and casts

Lazy operations on single pixels.

| operation | result |
| --- | --- |
| `flatten` | colour blended onto a background by the last band, which is dropped |
| `extractBands` | a run of bands |
| `cast` | samples in another format |

A blend is `fg * a + bg * (1 - a)` with `a = alpha / max` clamped to `0..1`,
rounded half away from zero for integer formats. A cast with `shift` keeps the
high bits of an integer instead of clamping it.
-/
import Raster.Image.Basic
import Raster.Image.Sample

namespace Raster

namespace Sample

/-- Clamps to a range; a NaN stays. -/
def clamp (least greatest v : Float) : Float :=
  if v < least then least else if greatest < v then greatest else v

/-- Rounds half away from zero where samples are integers. -/
def roundFor (f : BandFormat) (v : Float) : Float := if f.isInt then v.round else v

/-- The high bits of an integer sample. -/
def shiftRight (bits : Nat) (v : Float) : Float :=
  if bits = 0 then v else Float.ofInt (v.toInt64.toInt >>> bits)

end Sample

namespace Image

variable {ι : Type}

/-- The background of each of `n` bands: black, one value for all, or one value each. -/
def backgroundFor (n : Nat) (background : List Double) : Except Error (List Float) :=
  match background with
  | [] => .ok (List.replicate n 0.0)
  | [v] => .ok (List.replicate n v.toFloat)
  | vs =>
    if vs.length = n then .ok (vs.map Double.toFloat)
    else .error (.badOption "background" s!"{vs.length} values given for {n} bands")

/-- One pixel blended onto the background. -/
def blend (f : BandFormat) (maxAlpha : Float) (background : List Float) (pixel : Bytes) :
    Option Bytes := do
  let v := f.readAll pixel
  let alpha ← v[background.length]?
  let a := Sample.clamp 0.0 1.0 (alpha / maxAlpha)
  return (v.zip background).flatMap fun (fg, bg) =>
    f.write (Sample.roundFor f (fg * a + bg * (1.0 - a)))

/-- Blends colour onto a background by the last band and drops that band; an image of one band
stays as it is. -/
def flatten (image : Image ι) (background : List Double) : Except Error (Image ι) :=
  let h := image.header
  if h.bands < 2 then .ok image
  else do
    let background ← backgroundFor (h.bands - 1).toNat background
    return image.map { h with bands := h.bands - 1 } (blend h.format h.maxAlpha background)

/-- The bytes of some bands of a pixel. -/
def pixelPart (start n : Nat) (pixel : Bytes) : Option Bytes := pixel.slice? start n

/-- The `n` bands from band `first` on. The number of the band behind them has to be a word. -/
def extractBands (image : Image ι) (first n : UInt32) : Except Error (Image ι) := do
  let h := image.header
  let behind ← checkedSum first n
  if n = 0 ∨ h.bands < behind then
    throw (.badOption "n" s!"bands {first}..{behind} of a {h.bands}-band image")
  if first = 0 ∧ n = h.bands then return image
  return image.map { h with bands := n }
    (pixelPart (first.toNat * h.format.size) (n.toNat * h.format.size))

/-- One pixel with its samples in another format. -/
def recast (source target : BandFormat) (shift : Nat) (pixel : Bytes) : Bytes :=
  (source.readAll pixel).flatMap fun v => target.write (Sample.shiftRight shift v)

/-- By how many bits a shifting cast moves a sample. -/
def castShift (source target : BandFormat) (shift : Bool) : Nat :=
  if shift && source.isInt && target.isInt then source.bits - target.bits else 0

/-- The same samples in another format; no change where they have it already. -/
def cast (image : Image ι) (target : BandFormat) (shift : Bool) : Image ι :=
  let h := image.header
  if h.format = target then image
  else
    image.map { h with format := target }
      fun pixel => some (recast h.format target (castShift h.format target shift) pixel)

end Image

end Raster
