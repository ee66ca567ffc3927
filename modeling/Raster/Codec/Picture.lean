/-
# Pictures

What a picture says about itself where its pixels are kept as they are.
-/
import Raster.Bytes
import Raster.Image.Header

namespace Raster

/-- What an encoded picture says about itself. -/
structure Picture where
  width : UInt32
  height : UInt32
  bands : UInt32
  format : BandFormat
  /-- The embedded ICC profile. -/
  icc : Option Bytes := none
  /-- The embedded EXIF block. -/
  exif : Option Bytes := none
  deriving DecidableEq

namespace Picture

/-- Bytes of a row of pixels. -/
def lineSize (p : Picture) : Nat := p.width.toNat * p.bands.toNat * p.format.size

/-- Bytes of all pixels. -/
def imageSize (p : Picture) : Nat := p.lineSize * p.height.toNat

end Picture

end Raster
