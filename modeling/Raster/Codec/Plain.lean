/-
# Plain pictures

The encoding behind the signature of the formats other than PNG: the picture and
its pixels as they are, and a checksum over all that.

| size | field |
| ---: | --- |
| 4 | CRC-32 of what follows |
| 12 | width, height, bands |
| 1 | bits of a sample |
| 4 + n | length of the profile and one, or zero for none; the profile |
| | pixels |

Numbers are least significant byte first.
-/
import Raster.Codec.Checksum
import Raster.Codec.Picture

namespace Raster

namespace Plain

/-- The bytes of a profile behind its length. -/
def profileBytes : Option Bytes → Bytes
  | none => ByteOrder.little.put32 0
  | some profile => ByteOrder.little.put32 (UInt32.ofNat (profile.length + 1)) ++ profile

/-- Encodes a picture. -/
def encode (p : Picture) (pixels : Bytes) : Bytes :=
  let body := ByteOrder.little.put32 p.width ++ ByteOrder.little.put32 p.height
    ++ ByteOrder.little.put32 p.bands ++ [UInt8.ofNat p.format.bits] ++ profileBytes p.icc ++ pixels
  ByteOrder.little.put32 (Checksum.crc32 body) ++ body

/-- A profile and the bytes behind it. -/
def readProfile (bytes : Bytes) : Option (Option Bytes × Bytes) := do
  let length := (ByteOrder.little.get32 (← bytes.slice? 0 4)).toNat
  if length = 0 then return (none, bytes.drop 4)
  else return (some (← bytes.slice? 4 (length - 1)), bytes.drop (3 + length))

/-- The picture and the pixels of an encoding. -/
def decode (bytes : Bytes) : Option (Picture × Bytes) := do
  let sum := ByteOrder.little.get32 (← bytes.slice? 0 4)
  let body : Bytes := bytes.drop 4
  if sum ≠ Checksum.crc32 body then none
  let head ← body.slice? 0 13
  let width := ByteOrder.little.get32 (head.take 4)
  let height := ByteOrder.little.get32 ((head.drop 4).take 4)
  let bands := ByteOrder.little.get32 ((head.drop 8).take 4)
  let format ← match (head.drop 12).head? with
    | some 8 => some BandFormat.uchar
    | some 16 => some .ushort
    | _ => none
  let (icc, pixels) ← readProfile (body.drop 13)
  let picture : Picture := { width, height, bands, format, icc }
  if width = 0 ∨ height = 0 ∨ pixels.length ≠ picture.imageSize then none
  return (picture, pixels)

end Plain

end Raster
