/-
# A simple engine

An engine that keeps pixels as they are. Its files begin as those of the formats do, but
only PNG is the format itself:

| format | signature | what follows | profile |
| --- | --- | --- | --- |
| PNG | `89 50 4E 47 0D 0A 1A 0A` | chunks | yes |
| JPEG | `FF D8 FF` | a plain picture | yes |
| TIFF | `MM 00 2A` or `II 2A 00` | a plain picture | no |
| WebP | `RIFF`, four bytes, `WEBP` | a plain picture | yes |

The effort and the quality that an encoder was set up with make no difference.
-/
import Raster.Codec.Engine
import Raster.Codec.Plain
import Raster.Codec.Png

namespace Raster

namespace Codec

/-- The format of some leading bytes. -/
def ofHead? (head : Bytes) : Option Codec :=
  if head.take 8 = Png.signature then some png
  else if head.take 3 = [0xFF, 0xD8, 0xFF] then some jpeg
  else if head.take 4 = Bytes.ofText "RIFF" ∧ (head.drop 8).take 4 = Bytes.ofText "WEBP" then
    some webp
  else if head.take 4 = [0x4D, 0x4D, 0x00, 0x2A] ∨ head.take 4 = [0x49, 0x49, 0x2A, 0x00] then
    some tiff
  else none

/-- What stands before a plain picture. -/
def lead : Codec → Bytes → Bytes
  | png, _ => []
  | jpeg, _ => [0xFF, 0xD8, 0xFF, 0xE0]
  | tiff, _ => [0x49, 0x49, 0x2A, 0x00]
  | webp, body =>
    Bytes.ofText "RIFF" ++ ByteOrder.little.put32 (UInt32.ofNat (body.length + 4))
      ++ Bytes.ofText "WEBP"

/-- How many bytes stand before a plain picture. -/
def leadLength : Codec → Nat
  | png => 0
  | jpeg | tiff => 4
  | webp => 12

/-- The greatest width and height that a format can write. -/
def maxSide : Codec → UInt32
  | jpeg => 65535
  | webp => 16384
  | png | tiff => 0xFFFFFFFF

/-- Whether a format can write a picture. -/
def canEncode (codec : Codec) (p : Picture) : Bool :=
  let bands : List UInt32 := match codec with
    | png => [1, 2, 3, 4]
    | jpeg => [1, 3]
    | tiff => [1, 3, 4]
    | webp => [1, 2, 3, 4]
  let formats : List BandFormat := match codec with
    | png | tiff => [.uchar, .ushort]
    | jpeg | webp => [.uchar]
  bands.contains p.bands && formats.contains p.format && p.width ≤ codec.maxSide
    && p.height ≤ codec.maxSide && p.width != 0 && p.height != 0

/-- Encodes a picture, if the format can write it. -/
def encode (codec : Codec) (p : Picture) (pixels : Bytes) : Option Bytes :=
  if codec.canEncode p then
    match codec with
    | png => Png.encode p pixels
    | tiff => some (tiff.lead [] ++ Plain.encode { p with icc := none } pixels)
    | _ =>
      let body := Plain.encode p pixels
      some (codec.lead body ++ body)
  else none

/-- What an encoded picture says about itself. -/
def readPicture (codec : Codec) (bytes : Bytes) : Option Picture :=
  match codec with
  | png => (Png.readPicture bytes).map (·.1)
  | _ =>
    if ofHead? bytes = some codec then (Plain.decode (bytes.drop codec.leadLength)).map (·.1)
    else none

/-- An encoded picture with its pixels. -/
def readPixels (codec : Codec) (bytes : Bytes) : Option (Picture × Bytes) :=
  match codec with
  | png => Png.readPixels bytes
  | _ =>
    if ofHead? bytes = some codec then Plain.decode (bytes.drop codec.leadLength) else none

end Codec

/-- The format that an encoder writes. -/
def Encoder.codec : Encoder → Codec
  | png _ => .png
  | jpeg _ => .jpeg
  | tiff => .tiff
  | webp => .webp

namespace PictureEngine

/-- What is said about bytes that cannot be read. -/
def unreadable : String := "not a valid file"

/-- What is said about a picture that a format has no place for. -/
def unencodable : String := "image cannot be encoded"

/-- The samples of a picture. -/
def colourOf (p : Picture) : ColourType := (ColourType.of? p.bands p.format).getD (.other "none")

/-- Reads what a picture says about itself. -/
def readSimple (codec : Codec) (bytes : Bytes) : Except String PictureInfo :=
  match codec.readPicture bytes with
  | none => .error unreadable
  | some p =>
    .ok { width := p.width, height := p.height, colour := colourOf p, icc := .ok p.icc
          exif := .ok p.exif }

/-- Reads all pixels of a picture. -/
def decodeSimple (codec : Codec) (bytes : Bytes) : Except String Pixmap :=
  match codec.readPixels bytes with
  | none => .error unreadable
  | some (p, pixels) => .ok { width := p.width, height := p.height, colour := colourOf p, pixels }

/-- Writes a picture. -/
def encodeSimple (encoder : Encoder) (icc : Option Bytes) (p : Pixmap) : Except String Bytes :=
  let written := do
    let (bands, format, _) ← p.colour.shape
    encoder.codec.encode { width := p.width, height := p.height, bands, format, icc } p.pixels
  match written with
  | some bytes => .ok bytes
  | none => .error unencodable

/-- The engine that keeps pixels as they are. -/
def simple : PictureEngine where
  guess := Codec.ofHead?
  read := readSimple
  decode := decodeSimple
  encode := encodeSimple

end PictureEngine

end Raster
