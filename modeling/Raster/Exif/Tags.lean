/-
# Known tags

What the tags of a block say: orientation, resolution, pixel dimensions, and a
line of text for every known tag. Numbers in those lines have at most three
decimals.

| type | value shown |
| --- | --- |
| ASCII | the text up to its first zero byte, trimmed |
| Undefined | how many bytes there are |
| other | its numbers between blanks; a rational over zero is `0` |
-/
import Raster.Exif.Layout
import Raster.Text.Number
import Raster.Text.Utf8

namespace Raster

/-- The units that resolution tags can be stored in. -/
inductive ResolutionUnit where
  | inch
  | centimetre
  deriving DecidableEq, Repr

namespace ResolutionUnit

/-- The unit that a metadata value names. -/
def ofMetadata : Option String → ResolutionUnit
  | some "cm" => centimetre
  | _ => inch

/-- The name of a unit in metadata. -/
def name : ResolutionUnit → String
  | inch => "in"
  | centimetre => "cm"

/-- The number of a unit in the tag. -/
def code : ResolutionUnit → UInt16
  | inch => 2
  | centimetre => 3

/-- Millimetres in a unit. -/
def millimetres : ResolutionUnit → Float
  | inch => 25.4
  | centimetre => 10.0

end ResolutionUnit

namespace Exif

/-- A known tag. -/
structure TagInfo where
  home : Section
  tag : UInt16
  name : String
  /-- Whether the tag is a text that its metadata field may replace. -/
  isText : Bool := false

/-- The orientation tag. -/
def orientationTag : UInt16 := 0x0112

/-- The horizontal resolution tag. -/
def xResolutionTag : UInt16 := 0x011A

/-- The vertical resolution tag. -/
def yResolutionTag : UInt16 := 0x011B

/-- The tag of the resolutions' unit. -/
def resolutionUnitTag : UInt16 := 0x0128

/-- The tag of the pixel width. -/
def pixelXTag : UInt16 := 0xA002

/-- The tag of the pixel height. -/
def pixelYTag : UInt16 := 0xA003

/-- The known tags, in the order of their lines. -/
def tags : List TagInfo := [
  ⟨.main, 0x010E, "ImageDescription", true⟩,
  ⟨.main, 0x010F, "Make", true⟩,
  ⟨.main, 0x0110, "Model", true⟩,
  ⟨.main, orientationTag, "Orientation", false⟩,
  ⟨.main, xResolutionTag, "XResolution", false⟩,
  ⟨.main, yResolutionTag, "YResolution", false⟩,
  ⟨.main, resolutionUnitTag, "ResolutionUnit", false⟩,
  ⟨.main, 0x0131, "Software", true⟩,
  ⟨.main, 0x0132, "DateTime", true⟩,
  ⟨.main, 0x013B, "Artist", true⟩,
  ⟨.main, 0x8298, "Copyright", true⟩,
  ⟨.exif, 0x829A, "ExposureTime", false⟩,
  ⟨.exif, 0x829D, "FNumber", false⟩,
  ⟨.exif, 0x8827, "ISOSpeedRatings", false⟩,
  ⟨.exif, 0x9000, "ExifVersion", false⟩,
  ⟨.exif, 0x9003, "DateTimeOriginal", true⟩,
  ⟨.exif, 0x9004, "DateTimeDigitized", true⟩,
  ⟨.exif, 0x920A, "FocalLength", false⟩,
  ⟨.exif, 0xA001, "ColorSpace", false⟩,
  ⟨.exif, pixelXTag, "PixelXDimension", false⟩,
  ⟨.exif, pixelYTag, "PixelYDimension", false⟩,
  ⟨.exif, 0xA434, "LensModel", true⟩,
  ⟨.gps, 0x0001, "GPSLatitudeRef", true⟩,
  ⟨.gps, 0x0002, "GPSLatitude", false⟩,
  ⟨.gps, 0x0003, "GPSLongitudeRef", true⟩,
  ⟨.gps, 0x0004, "GPSLongitude", false⟩,
  ⟨.interop, 0x0001, "InteroperabilityIndex", true⟩]

/-- What the names of tag fields start with. -/
def fieldStart : String := "exif-ifd"

/-- The metadata field of a tag. -/
def TagInfo.field (info : TagInfo) : String :=
  fieldStart ++ toString info.home.number ++ "-" ++ info.name

/-- The name of a type. -/
def typeName (kind : UInt16) : String :=
  match kind.toNat with
  | 1 => "Byte"
  | 2 => "ASCII"
  | 3 => "Short"
  | 4 => "Long"
  | 5 => "Rational"
  | 7 => "Undefined"
  | 9 => "SLong"
  | 10 => "SRational"
  | _ => "Unknown"

/-- A word as a signed number. -/
def signed32 (n : UInt32) : Float := Float.ofInt (Int.bmod n.toNat UInt32.size)

/-- The number at an index of an entry's values. -/
def numberAt (order : ByteOrder) (entry : Entry) (index : Nat) : Option Float :=
  let size := typeSize entry.kind
  (entry.bytes.slice? (index * size) size).bind fun b =>
    match entry.kind.toNat with
    | 1 | 7 => some (Float.ofNat (b.headD 0).toNat)
    | 3 => some (Float.ofNat (order.get16 b).toNat)
    | 4 => some (Float.ofNat (order.get32 b).toNat)
    | 9 => some (signed32 (order.get32 b))
    | 5 =>
      let (n, d) := (order.get32 (b.take 4), order.get32 (b.drop 4))
      some (if d = 0 then 0.0 else Float.ofNat n.toNat / Float.ofNat d.toNat)
    | 10 =>
      let (n, d) := (order.get32 (b.take 4), order.get32 (b.drop 4))
      some (if d = 0 then 0.0 else signed32 n / signed32 d)
    | _ => none

/-- The values of an entry as text. -/
def display (order : ByteOrder) (entry : Entry) : String :=
  match entry.kind.toNat with
  | 2 => Text.trim (Utf8.decodeLossy (entry.bytes.takeWhile (· != 0)))
  | 7 => s!"{entry.bytes.length} bytes undefined data"
  | _ =>
    Text.join " " ((List.range entry.count.toNat).filterMap fun i =>
      (numberAt order entry i).map fun v =>
        (Double.ofFloat ((v * 1000.0).round / 1000.0)).plainText)

/-- The line of an entry: its value, then value, type, count and size in brackets. -/
def line (order : ByteOrder) (entry : Entry) : String :=
  let value := display order entry
  s!"{value} ({value}, {typeName entry.kind}, {entry.count} components, {entry.bytes.length} bytes)"

/-- The first entry of a known tag. -/
def entryOf (exif : Exif) (info : TagInfo) : Option Entry :=
  (exif.directory? info.home).bind (find? info.tag)

/-- Every known tag that is there, as field name and line. -/
def fields (exif : Exif) : List (String × String) :=
  tags.filterMap fun info =>
    (exif.entryOf info).map fun entry => (info.field, line exif.order entry)

/-- The first number of the first entry of a tag in the main directory. -/
def mainNumber (exif : Exif) (tag : UInt16) : Option Float :=
  (find? tag exif.entries).bind fun entry => numberAt exif.order entry 0

/-- The orientation tag. -/
def orientation (exif : Exif) : Option UInt16 :=
  (exif.mainNumber orientationTag).map Float.toUInt16

/-- The resolutions in pixels per millimetre, and the unit they are stored in. -/
def resolution (exif : Exif) : Option (Float × Float × ResolutionUnit) := do
  let x ← exif.mainNumber xResolutionTag
  let y ← exif.mainNumber yResolutionTag
  let unit : ResolutionUnit :=
    if (exif.mainNumber resolutionUnitTag).map Float.toUInt16 = some 3 then .centimetre else .inch
  return (x / unit.millimetres, y / unit.millimetres, unit)

/-- An entry of one 16-bit number. -/
def shortEntry (order : ByteOrder) (tag n : UInt16) : Entry := .value tag 3 1 (order.put16 n)

/-- An entry of one 32-bit number. -/
def longEntry (order : ByteOrder) (tag : UInt16) (n : UInt32) : Entry :=
  .value tag 4 1 (order.put32 n)

/-- An entry of one number in thousandths, clamped to what a rational can say. -/
def rationalEntry (order : ByteOrder) (tag : UInt16) (v : Float) : Entry :=
  let thousandths := (v * 1000.0).round
  let numerator : UInt32 :=
    if thousandths < 0.0 then 0
    else if 4294967295.0 < thousandths then 4294967295
    else thousandths.toUInt32
  .value tag 5 1 (order.put32 numerator ++ order.put32 1000)

/-- An entry of a text and a zero byte behind it. -/
def textEntry (tag : UInt16) (text : String) : Entry :=
  let bytes := Bytes.ofText text ++ [0]
  .value tag 2 (UInt32.ofNat bytes.length) bytes

/-- The block with another orientation. -/
def setOrientation (exif : Exif) (orientation : UInt16) : Exif :=
  { exif with entries := put (shortEntry exif.order orientationTag orientation) exif.entries }

/-- The block with other resolutions, given in pixels per millimetre. -/
def setResolution (exif : Exif) (xres yres : Float) (unit : ResolutionUnit) : Exif :=
  let o := exif.order
  { exif with
    entries :=
      put (shortEntry o resolutionUnitTag unit.code)
        (put (rationalEntry o yResolutionTag (yres * unit.millimetres))
          (put (rationalEntry o xResolutionTag (xres * unit.millimetres)) exif.entries)) }

/-- Puts an entry only where its tag is already. -/
def putIfThere (entry : Entry) (entries : List Entry) : List Entry :=
  if (find? entry.tag entries).isSome then put entry entries else entries

/-- The block with other pixel dimensions, where it has any. -/
def setDimensions (exif : Exif) (width height : UInt32) : Exif :=
  exif.edit .exif fun entries =>
    putIfThere (longEntry exif.order pixelYTag height)
      (putIfThere (longEntry exif.order pixelXTag width) entries)

end Exif

end Raster
