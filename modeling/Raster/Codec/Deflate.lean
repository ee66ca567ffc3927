/-
# Stored deflate streams

A zlib stream whose deflate blocks are all stored:

| size | field |
| ---: | --- |
| 2 | `78 01` |
| 5 + n | block: 1 for the last one, else 0; `n` and its complement in 16 bits; `n` bytes |
| 4 | Adler-32 of the bytes, most significant byte first |

Only such streams are read; any other kind of block is refused. Whatever follows the
sum does not count.
-/
import Raster.Codec.Checksum

namespace Raster

namespace Deflate

/-- The most bytes of a stored block. -/
def maxStored : Nat := 65535

/-- A stored block. -/
def storedBlock (isLast : Bool) (bytes : Bytes) : Bytes :=
  let n := UInt16.ofNat bytes.length
  (if isLast then 1 else 0) :: ByteOrder.little.put16 n ++ ByteOrder.little.put16 (~~~n) ++ bytes

/-- Bytes in stored blocks, at most `fuel` before the last one. -/
def storedBlocks : (fuel : Nat) → Bytes → Bytes
  | 0, bytes => storedBlock true bytes
  | fuel + 1, bytes =>
    if bytes.length ≤ maxStored then storedBlock true bytes
    else storedBlock false (bytes.take maxStored) ++ storedBlocks fuel (bytes.drop maxStored)

/-- A zlib stream of the bytes. -/
def compress (bytes : Bytes) : Bytes :=
  [0x78, 0x01] ++ storedBlocks (bytes.length / maxStored) bytes
    ++ ByteOrder.big.put32 (Checksum.adler32 bytes)

/-- The bytes of stored blocks and what follows them. -/
def readBlocks : (fuel : Nat) → Bytes → Option (Bytes × Bytes)
  | 0, _ => none
  | fuel + 1, bytes => do
    let head ← bytes.slice? 0 5
    let n := ByteOrder.little.get16 ((head.drop 1).take 2)
    let complement := ByteOrder.little.get16 (head.drop 3)
    let kind := head.headD 0 % 8
    if 1 < kind ∨ complement ≠ ~~~n then none
    else
      let stored ← bytes.slice? 5 n.toNat
      let rest := bytes.drop (5 + n.toNat)
      if kind = 1 then return (stored, rest)
      else
        let (others, rest) ← readBlocks fuel rest
        return (stored ++ others, rest)

/-- The bytes of a zlib stream with stored blocks, and the sum that it states. -/
def contentAndSum? (bytes : Bytes) : Option (Bytes × UInt32) := do
  let head ← bytes.slice? 0 2
  let number := ByteOrder.big.get16 head
  if head.headD 0 % 16 ≠ 8 ∨ 127 < head.headD 0 ∨ number % 31 ≠ 0 ∨ number / 32 % 2 = 1 then none
  else
    let (content, rest) ← readBlocks bytes.length (bytes.drop 2)
    let sum ← rest.slice? 0 4
    return (content, ByteOrder.big.get32 sum)

/-- The bytes of a zlib stream with stored blocks, if its sum is right. -/
def decompress (bytes : Bytes) : Option Bytes := do
  let (content, sum) ← contentAndSum? bytes
  if sum = Checksum.adler32 content then return content else none

end Deflate

end Raster
