/-
# Where decoded pixels live

| store | pixels |
| --- | --- |
| `memory` | read once, kept in one buffer |
| `direct` | asked from the decoder's own source every time |
| `disc` | read once, kept in a temporary file that nobody else sees |

The store never changes what a fetch answers; it only decides when the decoder
is asked.
-/
import Raster.Image.Basic

namespace Raster

/-- Rows read from what is stored in a file from `offset` on. They are read into as many bytes as
the rectangle has, as long as a whole row has room there. Each row is sought and read by itself: an
offset of 2^63 or more cannot be sought, and a row that is cut short is an error. -/
def readRows (content : Except IoFault (Array UInt8)) (offset line pixel : UInt64) (r : Rect) :
    Except Error Bytes := do
  if r.rowBytes pixel = 0 then return []
  let rows ← (r.rows.take (r.totalBytes pixel / r.rowBytes pixel).toNat).mapM fun y =>
    let start := offset + r.rowStart line pixel y
    if 0x8000000000000000 ≤ start.toNat then .error (.io .invalidInput)
    else
      match content with
      | .error fault => .error (.io fault)
      | .ok bytes =>
        match Rect.between? bytes start (start + r.rowBytes pixel) with
        | some row => .ok row
        | none => .error (.io .unexpectedEof)
  -- a total that wraps may end within a row; that part stays zero
  return rows.flatten ++ List.replicate (r.totalBytes pixel % r.rowBytes pixel).toNat 0

/-- A place for decoded pixels. -/
inductive StoreKind where
  | memory
  | direct
  | disc
  deriving DecidableEq, Repr

/-- The name of a store. -/
def StoreKind.name : StoreKind → String
  | .memory => "Memory"
  | .direct => "Direct"
  | .disc => "Disc"

namespace Image

/-- The image with its pixels read into memory. -/
def toMemory (files : Files) (image : Image Empty) : Except Error (Image Empty) := do
  let bytes ← image.fetchAllFrom files
  let copy ← Image.ofBytes image.source.identity.next image.header bytes
  return { copy with metadata := image.metadata }

/-- Rows written to the temporary file at a time. -/
def spillRows : Nat := 64

/-- The image with its pixels read into a temporary file. -/
def spill (files : Files) (image : Image Empty) : Except Error (Image Empty) := do
  let h := image.header
  let chunks ← (Rect.strips h spillRows).mapM (image.fetchFrom files)
  let packed := chunks.flatten.toArray
  return { image with
    source := .direct image.source.identity.next fun _ r =>
      readRows (.ok packed) 0 h.lineSize h.pixelSize r }

/-- The image with its pixels in a store. -/
def fill (files : Files) (kind : StoreKind) (image : Image Empty) : Except Error (Image Empty) :=
  match kind with
  | .direct => .ok image
  | .memory => image.toMemory files
  | .disc => image.spill files

end Image

end Raster
