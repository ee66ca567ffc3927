/-
# Writing the native container

The fields of `Native.Layout` in the same order. Written are the pixels as they
are and every field of the metadata that says something about the image itself:
whether it was read from top to bottom does not, and is left out. A name of more
than 65535 bytes, or a value of 2^32 bytes or more, has no place and is left out
too.
-/
import Raster.Native.Layout

namespace Raster

namespace Native

/-- The number of a value's kind. -/
def kindOf : MetaValue → UInt8
  | .int _ => intKind
  | .double _ => doubleKind
  | .text _ => textKind
  | .blob _ => blobKind

/-- The bytes of a value. -/
def valueBytes (order : ByteOrder) : MetaValue → Bytes
  | .int v => order.put64 v.toUInt64
  | .double v => order.put64 v.bits
  | .text v => Bytes.ofText v
  | .blob v => v

/-- Whether a field has a place in a container. -/
def fits (order : ByteOrder) (name : String) (value : MetaValue) : Bool :=
  name.utf8ByteSize < UInt16.size && (valueBytes order value).length < UInt32.size

/-- The fields that describe the image. -/
def storable (metadata : Metadata) : Metadata :=
  metadata.filter fun name _ => name != Metadata.sequential

/-- The fields that are written. -/
def written (order : ByteOrder) (metadata : Metadata) : Metadata :=
  (storable metadata).filter (fits order)

/-- What is said about fields that are left out. -/
def omitted (name : String) (order : ByteOrder) (metadata : Metadata) : List String :=
  ((storable metadata).filter fun n v => !fits order n v).names.map fun field =>
    s!"{name}: field \"{field}\" too large to store"

/-- The bytes of a field. -/
def fieldBytes (order : ByteOrder) (field : String × MetaValue) : Bytes :=
  let name := Bytes.ofText field.1
  let value := valueBytes order field.2
  order.put16 (UInt16.ofNat name.length) ++ name ++ [kindOf field.2]
    ++ order.put32 (UInt32.ofNat value.length) ++ value

/-- The bytes of the metadata. -/
def metadataBytes (order : ByteOrder) (metadata : Metadata) : Bytes :=
  let fields := (written order metadata).toList
  order.put32 (UInt32.ofNat fields.length) ++ fields.flatMap (fieldBytes order)

/-- The bytes of the header. -/
def headerBytes (order : ByteOrder) (h : Header) : Bytes :=
  let interpretation := Bytes.ofText h.interpretation.name
  [UInt8.ofNat h.format.index, codingCode h.coding]
    ++ order.put32 h.width ++ order.put32 h.height ++ order.put32 h.bands
    ++ order.put64 h.xres.bits ++ order.put64 h.yres.bits
    ++ UInt8.ofNat interpretation.length :: interpretation

/-- Samples of one byte order in another. -/
def reorder (f : BandFormat) (order : ByteOrder) (pixels : Bytes) : Bytes :=
  if order = .machine then pixels else f.swapSamples pixels

/-- A container in a byte order. -/
def encode (order : ByteOrder) (h : Header) (metadata : Metadata) (pixels : Bytes) : Bytes :=
  magic ++ [version, orderTag order] ++ headerBytes order h ++ reorder h.format order pixels
    ++ metadataBytes order metadata

end Native

end Raster
