/-
# Metadata

Named values that travel with an image. Some names have a meaning that loaders
and savers share:

| name | value |
| --- | --- |
| `vips-loader` | the operation that loaded the image |
| `exif-data`, `xmp-data`, `iptc-data`, `icc-profile-data` | embedded blocks |
| `image-description` | a caption |
| `page-height`, `n-pages` | pages stacked in one image |
| `resolution-unit`, `orientation` | how to show the pixels |
| `vips-sequential` | `1` when pixels may only be read from top to bottom |
-/
import Raster.Bytes
import Raster.Fields
import Raster.Text.Number

namespace Raster

/-- The value of a metadata field. -/
inductive MetaValue where
  | int (v : Int64)
  | double (v : Double)
  | text (v : String)
  | blob (v : Bytes)
  deriving DecidableEq

/-- The named values of an image. -/
abbrev Metadata := Fields MetaValue

namespace Metadata

/-- The operation that loaded the image. -/
def loader : String := "vips-loader"

/-- The EXIF block. -/
def exif : String := "exif-data"

/-- The XMP packet. -/
def xmp : String := "xmp-data"

/-- The IPTC block. -/
def iptc : String := "iptc-data"

/-- The ICC profile. -/
def icc : String := "icc-profile-data"

/-- A caption. -/
def imageDescription : String := "image-description"

/-- Rows of one page. -/
def pageHeight : String := "page-height"

/-- The unit that resolutions are stored in. -/
def resolutionUnit : String := "resolution-unit"

/-- How the image is to be turned, `1` to `8`. -/
def orientation : String := "orientation"

/-- Set to `1` when pixels may only be read from top to bottom. -/
def sequential : String := "vips-sequential"

/-- A whole number: a double is cut and clamped to 64 bits, a text is parsed. -/
def getInt (fields : Metadata) (name : String) : Option Int64 :=
  match fields.get? name with
  | some (.int v) => some v
  | some (.double v) => some v.toFloat.toInt64
  | some (.text v) => (Number.int64 (Text.trim v)).toOption
  | _ => none

/-- A number: an integer is rounded to a double, a text is parsed. -/
def getDouble (fields : Metadata) (name : String) : Option Double :=
  match fields.get? name with
  | some (.int v) => some (.ofFloat v.toFloat)
  | some (.double v) => some v
  | some (.text v) => (Number.double (Text.trim v)).toOption
  | _ => none

/-- A text, as it stands. -/
def getText (fields : Metadata) (name : String) : Option String :=
  match fields.get? name with
  | some (.text v) => some v
  | _ => none

/-- A block of bytes. -/
def getBlob (fields : Metadata) (name : String) : Option Bytes :=
  match fields.get? name with
  | some (.blob v) => some v
  | _ => none

end Metadata

end Raster
