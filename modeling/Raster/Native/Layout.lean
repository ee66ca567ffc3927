/-
# Reading the native container

| offset | size | field |
| ---: | ---: | --- |
| 0 | 4 | `NIMG` |
| 4 | 1 | version, 1 |
| 5 | 1 | byte order: `I` least, `M` most significant byte first |
| 6 | 1 | band format, by its place in promotion tables |
| 7 | 1 | coding: 0 none, 1 LabQ, 2 Radiance |
| 8 | 12 | width, height, bands |
| 20 | 16 | resolutions |
| 36 | 1 + n | interpretation's name behind its length |
| | image size | pixels |
| | | metadata: how many fields, then each one's name behind its 16-bit length, its kind, its 32-bit length and its value |

Numbers are in the byte order that the container names. Pixels are passed over by
their size, so a container that ends too early is found out where its metadata
should stand.

A reading function takes the bytes in front of it and returns what it read with
the bytes behind.
-/
import Raster.Error
import Raster.Image.Header
import Raster.Image.Metadata
import Raster.Image.Sample
import Raster.Text.Utf8

namespace Raster

namespace Native

/-- The first bytes of a container. -/
def magic : Bytes := Bytes.ofText "NIMG"

/-- The version that is read and written. -/
def version : UInt8 := 1

/-- The byte that names an order. -/
def orderTag : ByteOrder → UInt8
  | .little => 73
  | .big => 77

/-- The order that a byte names. -/
def orderOfTag? (tag : UInt8) : Option ByteOrder :=
  if tag = 73 then some .little else if tag = 77 then some .big else none

/-- The number of a coding. -/
def codingCode : Coding → UInt8
  | .none => 0
  | .labq => 1
  | .rad => 2

/-- The coding of a number. -/
def codingOfCode? (code : UInt8) : Option Coding := Coding.all[code.toNat]?

/-- Why a container cannot be read. -/
inductive Fault where
  | truncated
  | notNative
  | badVersion (version : UInt8)
  | badOrder
  | badFormat (code : UInt8)
  | badCoding (code : UInt8)
  | badInterpretation (name : String)
  | badText (fault : Utf8.Fault)
  | badField (name : String)
  | emptyImage (width height bands : UInt32)
  | codedShape (coding : Coding)
  | tooLarge (width height bands : UInt32)
  /-- The end of the pixels is no 64-bit offset. -/
  | endTooLarge
  /-- The end of the pixels cannot be sought. -/
  | unreachable
  deriving DecidableEq, Repr

namespace Fault

/-- The words for a fault. -/
def message : Fault → String
  | truncated => "file is truncated"
  | notNative => "not a native image"
  | badVersion v => s!"unsupported version {v}"
  | badOrder => "bad byte order tag"
  | badFormat code => s!"bad band format {code}"
  | badCoding code => s!"bad coding {code}"
  | badInterpretation name => s!"unknown interpretation \"{name}\""
  | badText fault => fault.message
  | badField name => s!"bad metadata field \"{name}\""
  | emptyImage w h b => s!"empty image {w}x{h}x{b}"
  | codedShape coding => s!"{coding.name} coding needs 4 uchar bands"
  | tooLarge w h b => s!"image too large {w}x{h}x{b}"
  | endTooLarge => "image too large"
  | unreachable => "pixels end beyond what can be sought"

/-- The error of an operation that met a fault. -/
def toError (operation : String) : Fault → Error
  | unreachable => .io .invalidInput
  | fault => .decode operation fault.message

end Fault

/-- The next `n` bytes. -/
def readBytes (n : Nat) (bytes : Bytes) : Except Fault (Bytes × Bytes) :=
  let piece := bytes.take n
  if piece.length < n then .error .truncated else .ok (piece, bytes.drop n)

/-- The next byte. -/
def readByte : Bytes → Except Fault (UInt8 × Bytes)
  | [] => .error .truncated
  | b :: rest => .ok (b, rest)

/-- The next 16-bit number. -/
def read16 (order : ByteOrder) (bytes : Bytes) : Except Fault (UInt16 × Bytes) :=
  (readBytes 2 bytes).map fun (piece, rest) => (order.get16 piece, rest)

/-- The next 32-bit number. -/
def read32 (order : ByteOrder) (bytes : Bytes) : Except Fault (UInt32 × Bytes) :=
  (readBytes 4 bytes).map fun (piece, rest) => (order.get32 piece, rest)

/-- The next 64-bit number. -/
def read64 (order : ByteOrder) (bytes : Bytes) : Except Fault (UInt64 × Bytes) :=
  (readBytes 8 bytes).map fun (piece, rest) => (order.get64 piece, rest)

/-- The next `n` bytes as a text. -/
def readText (n : Nat) (bytes : Bytes) : Except Fault (String × Bytes) := do
  let (piece, rest) ← readBytes n bytes
  match Utf8.decode piece with
  | .ok s => return (s, rest)
  | .error fault => throw (.badText fault)

/-- The fields of a header as they stand in the container. -/
structure RawHeader where
  format : UInt8
  coding : UInt8
  width : UInt32
  height : UInt32
  bands : UInt32
  xres : Double
  yres : Double
  interpretation : String

/-- Reads the fields of a header. -/
def readRawHeader (order : ByteOrder) (bytes : Bytes) : Except Fault (RawHeader × Bytes) := do
  let (format, bytes) ← readByte bytes
  let (coding, bytes) ← readByte bytes
  let (width, bytes) ← read32 order bytes
  let (height, bytes) ← read32 order bytes
  let (bands, bytes) ← read32 order bytes
  let (xres, bytes) ← read64 order bytes
  let (yres, bytes) ← read64 order bytes
  let (length, bytes) ← readByte bytes
  let (interpretation, bytes) ← readText length.toNat bytes
  return ({ format, coding, width, height, bands, xres := ⟨xres⟩, yres := ⟨yres⟩,
            interpretation }, bytes)

/-- The header that the fields stand for, unless they make no sense. -/
def RawHeader.check (raw : RawHeader) : Except Fault Header :=
  match BandFormat.ofIndex? raw.format.toNat with
  | none => .error (.badFormat raw.format)
  | some format =>
    match codingOfCode? raw.coding with
    | none => .error (.badCoding raw.coding)
    | some coding =>
      match Interpretation.ofName? raw.interpretation with
      | none => .error (.badInterpretation raw.interpretation)
      | some interpretation =>
        let h : Header := {
          width := raw.width, height := raw.height, bands := raw.bands, format, coding,
          interpretation, xres := raw.xres, yres := raw.yres }
        if h.width = 0 ∨ h.height = 0 ∨ h.bands = 0 then
          .error (.emptyImage h.width h.height h.bands)
        else if coding ≠ .none ∧ (h.bands ≠ 4 ∨ format ≠ .uchar) then .error (.codedShape coding)
        else if h.checkedImageSize.isNone then .error (.tooLarge h.width h.height h.bands)
        else .ok h

/-- The numbers of the kinds of values. -/
def intKind : UInt8 := 0

/-- A double-precision number. -/
def doubleKind : UInt8 := 1

/-- A text. -/
def textKind : UInt8 := 2

/-- A block of bytes. -/
def blobKind : UInt8 := 3

/-- The next value, of a kind and length. -/
def readValue (order : ByteOrder) (name : String) (kind : UInt8) (length : Nat) (bytes : Bytes) :
    Except Fault (MetaValue × Bytes) :=
  if kind = intKind ∧ length = 8 then
    (read64 order bytes).map fun (v, rest) => (.int v.toInt64, rest)
  else if kind = doubleKind ∧ length = 8 then
    (read64 order bytes).map fun (v, rest) => (.double ⟨v⟩, rest)
  else if kind = textKind then
    (readText length bytes).map fun (v, rest) => (.text v, rest)
  else if kind = blobKind then
    (readBytes length bytes).map fun (v, rest) => (.blob v, rest)
  else .error (.badField name)

/-- The next field. -/
def readField (order : ByteOrder) (bytes : Bytes) : Except Fault ((String × MetaValue) × Bytes) := do
  let (nameLength, bytes) ← read16 order bytes
  let (name, bytes) ← readText nameLength.toNat bytes
  let (kind, bytes) ← readByte bytes
  let (length, bytes) ← read32 order bytes
  let (value, bytes) ← readValue order name kind length.toNat bytes
  return ((name, value), bytes)

/-- Adds the next `n` fields to a metadata; a later field of a name wins. -/
def readFields (order : ByteOrder) : (n : Nat) → Metadata → Bytes → Except Fault Metadata
  | 0, metadata, _ => .ok metadata
  | n + 1, metadata, bytes =>
    match readField order bytes with
    | .error fault => .error fault
    | .ok ((name, value), rest) => readFields order n (metadata.insert name value) rest

/-- The metadata behind the pixels. -/
def readMetadata (order : ByteOrder) (bytes : Bytes) : Except Fault Metadata := do
  let (count, bytes) ← read32 order bytes
  readFields order count.toNat {} bytes

/-- Everything in a container except its pixels. -/
structure Layout where
  header : Header
  order : ByteOrder
  /-- The offset of the first pixel. -/
  pixels : UInt64
  metadata : Metadata

/-- The byte order of a container, and what follows its name. -/
def readStart (bytes : Bytes) : Except Fault (ByteOrder × Bytes) := do
  let (start, rest) ← readBytes 6 bytes
  if start.take 4 ≠ magic then throw .notNative
  let found := (start.drop 4).headD 0
  if found ≠ version then throw (.badVersion found)
  match orderOfTag? ((start.drop 5).headD 0) with
  | some order => return (order, rest)
  | none => throw .badOrder

/-- The offset behind the pixels, if it is one. -/
def pixelEnd (pixels : UInt64) (h : Header) : Option UInt64 :=
  h.checkedImageSize.bind (Header.checkedAdd pixels)

/-- How the bytes of a container are reached: a place in memory has any offset, one in a file
only offsets below `2^63`. -/
inductive Medium where
  | memory
  | file
  deriving DecidableEq, Repr

/-- Whether an offset can be sought. -/
def Medium.reaches : Medium → UInt64 → Bool
  | memory, _ => true
  | file, offset => decide (offset.toNat < 0x8000000000000000)

/-- Reads a container. -/
def readLayout (medium : Medium) (bytes : Bytes) : Except Fault Layout := do
  let (order, rest) ← readStart bytes
  let (raw, rest) ← readRawHeader order rest
  let header ← raw.check
  let pixels := UInt64.ofNat (bytes.length - rest.length)
  match pixelEnd pixels header with
  | none => throw .endTooLarge
  | some stop =>
    if medium.reaches stop then
      let metadata ← readMetadata order (bytes.drop stop.toNat)
      return { header, order, pixels, metadata }
    else throw .unreachable

end Native

end Raster
