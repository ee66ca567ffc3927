/-
# Fitting an image to a saver

A saver says which colour models, band formats and codings it takes.
`convertSaveable` bridges the gap in a fixed order:

| step | what happens |
| --- | --- |
| pass | an image that is acceptable already is returned as it is |
| unpack | LabQ becomes sRGB, Radiance becomes float |
| colour | grey stays grey, CMYK stays CMYK, else RGB, CMYK or grey, whichever comes first |
| alpha | flattened onto the background where the saver has none |
| bands | surplus bands dropped |
| format | cast through the table |
| coding | packed or unpacked as the saver needs |

Every step is lazy.
-/
import Raster.Capability
import Raster.Colour

namespace Raster

namespace Normalize

variable {ι : Type}

/-- Brings an image to a colour model that the saver takes. -/
def fitColour (image : Image ι) (saveable : Saveable) (colour : ColourEngine ι) :
    Except Error (Image ι) := do
  if saveable.any then return image
  -- depth follows the source, not what unpacking makes of it
  let sixteen := image.header.format == .ushort
  let image ← match image.header.coding with
    | .labq => colour.colourspace image .srgb
    | .rad => image.radToFloat
    | .none => pure image
  if saveable.mono && image.header.bands < 3 then return image
  let isCmyk := image.header.guessInterpretation == .cmyk && 4 ≤ image.header.bands
  if isCmyk && saveable.cmyk then return image
  let image ← if isCmyk then colour.importProfile image true else pure image
  if saveable.rgb then colour.colourspace image (if sixteen then .rgb16 else .srgb)
  else if saveable.cmyk then colour.exportProfile image (if sixteen then 16 else 8)
  else if saveable.mono then colour.colourspace image (if sixteen then .grey16 else .bw)
  else throw .unsupportedOutputModel

/-- The colour bands of a declared interpretation, where they limit the others. -/
def colourLimit : Interpretation → Option UInt32
  | .bw | .grey16 => some 1
  | .rgb | .cmc | .lch | .labs | .srgb | .yxy | .xyz | .lab | .rgb16 | .scrgb | .hsv => some 3
  | .cmyk => some 4
  | _ => none

/-- The most bands that the saver can take, `0` for no limit. -/
def maxBands (h : Header) (saveable : Saveable) : Except Error UInt32 :=
  match if saveable.any then some h.bands else colourLimit h.interpretation with
  | none => .ok 0
  | some n => if saveable.alpha then checkedSum n 1 else .ok n

/-- Packs or unpacks where the saver does not take the coding. -/
def recode (image : Image ι) (codings : CodingSet) : Except Error (Image ι) := do
  if codings.accepts image.header.coding then return image
  let plain ← image.decode
  if codings.labq then plain.labToLabq
  else if codings.rad then plain.floatToRad
  else return plain

/-- Converts an image to a shape that a saver can write. -/
def convertSaveable (image : Image ι) (saveable : Saveable) (table : FormatTable)
    (codings : CodingSet) (background : List Double) (colour : ColourEngine ι) :
    Except Error (Image ι) := do
  let h := image.header
  if h.coding ≠ .none ∧ codings.accepts h.coding then return image
  if h.coding = .none ∧ saveable.any ∧ table h.format = h.format then return image
  let out ← fitColour image saveable colour
  let out ←
    if out.header.coding = .none ∧ out.header.hasAlpha ∧ !saveable.alpha then
      out.flatten background
    else pure out
  let most ← maxBands out.header saveable
  let out ← if 0 < most ∧ most < out.header.bands then out.extractBands 0 most else pure out
  let out :=
    if out.header.coding = .none then
      let target := table out.header.format
      out.cast target (!out.header.format.is8Bit && target.is8Bit)
    else out
  recode out codings

end Normalize

end Raster
