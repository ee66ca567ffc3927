/-
# The picture formats

| format | saves | options |
| --- | --- | --- |
| PNG | grey, RGB, alpha; 8 and 16 bits | `compression` 0–9 |
| JPEG | grey, RGB; 8 bits | `Q` 1–100 |
| TIFF | grey, RGB, alpha; 8 and 16 bits | |
| WebP | RGB, alpha; 8 bits | |
-/
import Raster.Registry.Descriptor

namespace Raster

/-- A picture format. -/
inductive Codec where
  | png
  | jpeg
  | tiff
  | webp
  deriving DecidableEq, Repr

namespace Codec

/-- Every format, in the order of registration. -/
def all : List Codec := [png, jpeg, tiff, webp]

/-- The name of a format. -/
def name : Codec → String
  | png => "png"
  | jpeg => "jpeg"
  | tiff => "tiff"
  | webp => "webp"

/-- The name of a format in full. -/
def description : Codec → String
  | png => "Portable Network Graphics"
  | jpeg => "JPEG"
  | tiff => "Tagged Image File Format"
  | webp => "WebP (lossless)"

/-- The suffixes of a format. -/
def suffixes : Codec → List String
  | png => [".png"]
  | jpeg => [".jpg", ".jpeg", ".jpe"]
  | tiff => [".tif", ".tiff"]
  | webp => [".webp"]

/-- The priority of a format. -/
def priority : Codec → Int
  | png => 200
  | jpeg | tiff => 50
  | webp => 0

/-- The colour models that a format can write. -/
def saveable : Codec → Saveable
  | png | tiff => { mono := true, rgb := true, alpha := true }
  | jpeg => { mono := true, rgb := true }
  | webp => { rgb := true, alpha := true }

/-- The band formats that a format wants. -/
def table : Codec → FormatTable
  | png | tiff => fun f =>
    match f with
    | .ushort | .short | .uint | .int => .ushort
    | _ => .uchar
  | jpeg | webp => .allUchar

/-- Bytes that are enough to tell the formats apart. -/
def sniffLength : Nat := 16

end Codec

end Raster
