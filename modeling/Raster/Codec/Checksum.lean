/-
# Checksums

| sum | start | step for a byte |
| --- | --- | --- |
| CRC-32 | all ones | divide by the reflected polynomial `EDB88320`, bit by bit |
| Adler-32 | 1 and 0 | add the byte to the first sum, the first sum to the second, modulo 65521 |

A CRC-32 is inverted at the end.
-/
import Raster.Bytes

namespace Raster

namespace Checksum

/-- Divides by the polynomial once for every bit of a byte. -/
def crcBits : (bits : Nat) → UInt32 → UInt32
  | 0, crc => crc
  | bits + 1, crc => crcBits bits (if crc % 2 = 1 then (crc >>> 1) ^^^ 0xEDB88320 else crc >>> 1)

/-- The CRC-32 of a byte string. -/
def crc32 (bytes : Bytes) : UInt32 :=
  ~~~(bytes.foldl (fun crc b => crcBits 8 (crc ^^^ b.toUInt32)) 0xFFFFFFFF)

/-- The Adler-32 of a byte string. -/
def adler32 (bytes : Bytes) : UInt32 :=
  let (a, b) := bytes.foldl
    (fun (a, b) byte =>
      let a := (a + byte.toUInt32) % 65521
      (a, (b + a) % 65521))
    ((1, 0) : UInt32 × UInt32)
  b * 65536 + a

end Checksum

end Raster
