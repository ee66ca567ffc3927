/-
# PNG

A PNG is a signature and chunks: length, name, data and CRC-32 of name and data.

| chunk | data |
| --- | --- |
| `IHDR` | width, height, depth, colour type, three zeros |
| `iCCP` | a name, two zeros, the compressed profile |
| `eXIf` | an EXIF block |
| `IDAT` | the compressed rows, each behind a zero byte |
| `IEND` | |

| colour type | bands |
| ---: | ---: |
| 0 | 1 |
| 4 | 2 |
| 2 | 3 |
| 6 | 4 |

Depths of 8 and 16 bits are read and written, without interlace and without
filters. The picture is known once the first `IDAT` chunk begins; whether that is
whole shows only when pixels are decoded. Decoding goes on to the head of the chunk
behind the last `IDAT`; bytes behind the last row and the sum at the end of the rows
are not looked at. A chunk whose name begins with a small letter is passed over
where its sum is wrong.
-/
import Raster.Codec.Deflate
import Raster.Codec.Picture
import Raster.Image.Sample

namespace Raster

namespace Png

/-- The first bytes of a PNG. -/
def signature : Bytes := [0x89, 0x50, 0x4E, 0x47, 0x0D, 0x0A, 0x1A, 0x0A]

/-- The name of a chunk. -/
abbrev ChunkName := Bytes

/-- The chunk that comes first. -/
def headerChunk : ChunkName := Bytes.ofText "IHDR"

/-- The chunk of the profile. -/
def profileChunk : ChunkName := Bytes.ofText "iCCP"

/-- The chunk of the EXIF block. -/
def exifChunk : ChunkName := Bytes.ofText "eXIf"

/-- The chunk of the rows. -/
def dataChunk : ChunkName := Bytes.ofText "IDAT"

/-- The chunk that comes last. -/
def endChunk : ChunkName := Bytes.ofText "IEND"

/-- Colour types by band count. -/
def colourTypes : List (UInt32 × UInt8) := [(1, 0), (2, 4), (3, 2), (4, 6)]

/-- The bytes of a chunk. -/
def chunk (name : ChunkName) (data : Bytes) : Bytes :=
  ByteOrder.big.put32 (UInt32.ofNat data.length) ++ name ++ data
    ++ ByteOrder.big.put32 (Checksum.crc32 (name ++ data))

/-- Whether a picture can be shown without the chunks of a name. -/
def isAncillary (name : ChunkName) : Bool := name.headD 0 / 32 % 2 == 1

/-- The chunk that a byte string starts with, and the bytes behind it. Of an ancillary chunk with
a wrong sum only the bytes behind it are left. -/
def readChunk (bytes : Bytes) : Option (Option (ChunkName × Bytes) × Bytes) := do
  let head ← bytes.slice? 0 8
  let n := (ByteOrder.big.get32 (head.take 4)).toNat
  let name := head.drop 4
  let data ← bytes.slice? 8 n
  let sum ← bytes.slice? (8 + n) 4
  if ByteOrder.big.get32 sum = Checksum.crc32 (name ++ data) then
    return (some (name, data), bytes.drop (12 + n))
  else if isAncillary name then return (none, bytes.drop (12 + n))
  else none

/-- Whether a byte string starts with the head of a chunk of some name. -/
def startsChunk (name : ChunkName) (bytes : Bytes) : Bool := bytes.slice? 4 4 == some name

/-- The chunks before the first data chunk, and the bytes from there on. -/
def chunksBeforeData : (fuel : Nat) → Bytes → Option (List (ChunkName × Bytes) × Bytes)
  | 0, _ => none
  | fuel + 1, bytes =>
    if startsChunk dataChunk bytes then some ([], bytes)
    else do
      let (first, rest) ← readChunk bytes
      let (others, rest) ← chunksBeforeData fuel rest
      return (first.toList ++ others, rest)

/-- The data of consecutive data chunks; the head of another chunk has to follow them. -/
def dataChunks : (fuel : Nat) → Bytes → Option Bytes
  | 0, _ => none
  | fuel + 1, bytes =>
    if startsChunk dataChunk bytes then do
      let (chunk, rest) ← readChunk bytes
      let (_, data) ← chunk
      return data ++ (← dataChunks fuel rest)
    else if bytes.holds 8 then some []
    else none

/-- The most bytes of a row. -/
def maxLine : Nat := 0x20000000

/-- The picture that the data of a header chunk describes. -/
def readHeaderChunk (data : Bytes) : Option Picture := do
  if data.length ≠ 13 then none
  let width := ByteOrder.big.get32 (data.take 4)
  let height := ByteOrder.big.get32 ((data.drop 4).take 4)
  let format ← match (data.drop 8).head? with
    | some 8 => some BandFormat.uchar
    | some 16 => some .ushort
    | _ => none
  let colourType ← data[9]?
  let (bands, _) ← colourTypes.find? fun c => c.2 == colourType
  if width = 0 ∨ height = 0 ∨ data.drop 10 ≠ [0, 0, 0] then none
  let picture : Picture := { width, height, bands, format }
  if maxLine < picture.lineSize then none
  return picture

/-- The longest name of a profile. -/
def maxProfileName : Nat := 79

/-- The profile in the data of a profile chunk. -/
def readProfile (data : Bytes) : Option Bytes :=
  let name := data.takeWhile (· != 0)
  if name.isEmpty ∨ maxProfileName < name.length then none
  else
    match data.dropWhile (· != 0) with
    | 0 :: 0 :: compressed => Deflate.decompress compressed
    | _ => none

/-- What a PNG says about itself, and the bytes from its first data chunk on. -/
def readPicture (bytes : Bytes) : Option (Picture × Bytes) := do
  if bytes.take 8 ≠ signature ∨ !startsChunk headerChunk (bytes.drop 8) then none
  let (chunks, rest) ← chunksBeforeData bytes.length (bytes.drop 8)
  match chunks with
  | [] => none
  | (_, data) :: others =>
    let picture ← readHeaderChunk data
    if others.any fun c => c.1 == headerChunk || c.1 == endChunk then none
    let find (name : ChunkName) : Option Bytes := (others.find? fun c => c.1 == name).map (·.2)
    return ({ picture with
      icc := (find profileChunk).bind readProfile
      exif := find exifChunk }, rest)

/-- Samples in machine order in the order of a PNG, and back. -/
def reorder (p : Picture) (bytes : Bytes) : Bytes := p.format.swapSamples bytes

/-- The rows in front, given from the last one on, and those that follow, each without the zero
byte before it. -/
def readRows (line : Nat) : (rows : Nat) → (front : List Bytes) → Bytes → Option Bytes
  | 0, front, _ => some front.reverse.flatten
  | rows + 1, front, bytes =>
    match bytes with
    | 0 :: rest =>
      if Bytes.holds rest line then readRows line rows (rest.take line :: front) (rest.drop line)
      else none
    | _ => none

/-- The pixels of a PNG. -/
def readPixels (bytes : Bytes) : Option (Picture × Bytes) := do
  let (picture, rest) ← readPicture bytes
  let data ← dataChunks rest.length rest
  let (rows, _) ← Deflate.contentAndSum? data
  let pixels ← readRows picture.lineSize picture.height.toNat [] rows
  return (picture, reorder picture pixels)

/-- The chunk of a picture's profile. -/
def profileBytes (p : Picture) : Bytes :=
  match p.icc with
  | some profile => chunk profileChunk (Bytes.ofText "icc" ++ [0, 0] ++ Deflate.compress profile)
  | none => []

/-- Encodes a picture of one to four bands of 8 or 16 bits. -/
def encode (p : Picture) (pixels : Bytes) : Option Bytes := do
  let (_, colourType) ← colourTypes.find? fun c => c.1 == p.bands
  let depth ← match p.format with
    | .uchar => some (8 : UInt8)
    | .ushort => some 16
    | _ => none
  if p.width = 0 ∨ p.height = 0 then none
  let rows := ((reorder p pixels).chunks p.lineSize).flatMap fun row => 0 :: row
  let header := ByteOrder.big.put32 p.width ++ ByteOrder.big.put32 p.height
    ++ [depth, colourType, 0, 0, 0]
  return signature ++ chunk headerChunk header ++ profileBytes p
    ++ chunk dataChunk (Deflate.compress rows) ++ chunk endChunk []

end Png

end Raster
