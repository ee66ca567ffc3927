/-
# Engines for pictures

The bit streams of the picture formats are read and written by an engine. What the
handlers ask of it, and what they tell it, is all that is fixed here:

| question | answer |
| --- | --- |
| `guess` | the format that some leading bytes belong to |
| `read` | what a picture says about itself, no pixel decoded |
| `decode` | all pixels |
| `encode` | the bytes of a picture |

An engine answers with bytes of its own; it knows of no target and of no file. Where it
cannot answer it says why.
-/
import Raster.Codec.Basic

namespace Raster

/-- The samples of a picture. -/
inductive ColourType where
  | l8
  | la8
  | rgb8
  | rgba8
  | l16
  | la16
  | rgb16
  | rgba16
  | rgb32F
  | rgba32F
  /-- Any other samples that an engine may know of, by name. -/
  | other (name : String)
  deriving DecidableEq, Repr

namespace ColourType

/-- Bands, format and interpretation of the samples, where an image can have them. -/
def shape : ColourType → Option (UInt32 × BandFormat × Interpretation)
  | l8 => some (1, .uchar, .bw)
  | la8 => some (2, .uchar, .bw)
  | rgb8 => some (3, .uchar, .srgb)
  | rgba8 => some (4, .uchar, .srgb)
  | l16 => some (1, .ushort, .grey16)
  | la16 => some (2, .ushort, .grey16)
  | rgb16 => some (3, .ushort, .rgb16)
  | rgba16 => some (4, .ushort, .rgb16)
  | rgb32F => some (3, .float, .scrgb)
  | rgba32F => some (4, .float, .scrgb)
  | other _ => none

/-- The name of the samples. -/
def name : ColourType → String
  | l8 => "L8"
  | la8 => "La8"
  | rgb8 => "Rgb8"
  | rgba8 => "Rgba8"
  | l16 => "L16"
  | la16 => "La16"
  | rgb16 => "Rgb16"
  | rgba16 => "Rgba16"
  | rgb32F => "Rgb32F"
  | rgba32F => "Rgba32F"
  | other name => name

/-- The samples of an image with these bands and this format, where a picture can have them. -/
def of? (bands : UInt32) (format : BandFormat) : Option ColourType :=
  match bands.toNat, format with
  | 1, .uchar => some l8
  | 2, .uchar => some la8
  | 3, .uchar => some rgb8
  | 4, .uchar => some rgba8
  | 1, .ushort => some l16
  | 2, .ushort => some la16
  | 3, .ushort => some rgb16
  | 4, .ushort => some rgba16
  | 3, .float => some rgb32F
  | 4, .float => some rgba32F
  | _, _ => none

end ColourType

/-- What an encoded picture says about itself. A profile or a block may be there and be
unreadable. -/
structure PictureInfo where
  width : UInt32
  height : UInt32
  colour : ColourType
  /-- The embedded ICC profile. -/
  icc : Except String (Option Bytes) := .ok none
  /-- The embedded EXIF block. -/
  exif : Except String (Option Bytes) := .ok none

/-- All pixels of a picture, packed. -/
structure Pixmap where
  width : UInt32
  height : UInt32
  colour : ColourType
  pixels : Bytes
  deriving DecidableEq

/-- How hard a compressor tries. -/
inductive Compression where
  | fast
  | default
  | best
  deriving DecidableEq, Repr

/-- An encoder, set up for one picture. -/
inductive Encoder where
  | png (compression : Compression)
  | jpeg (quality : UInt8)
  | tiff
  | webp
  deriving DecidableEq, Repr

/-- Reads and writes pictures. -/
structure PictureEngine where
  guess : Bytes → Option Codec
  read : Codec → Bytes → Except String PictureInfo
  decode : Codec → Bytes → Except String Pixmap
  /-- The bytes of a picture with a profile, if the encoder has a place for one. -/
  encode : Encoder → Option Bytes → Pixmap → Except String Bytes

end Raster
