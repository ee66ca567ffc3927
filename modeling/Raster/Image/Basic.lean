/-
# Images

An image is a header, its metadata and a source of pixels. Nothing is calculated
before somebody fetches a rectangle, so a chain of conversions costs nothing
until then. Changing the metadata or relabelling the header leaves the source
alone.

| source | answers a rectangle with |
| --- | --- |
| `direct` | what a function of the files and the rectangle says |
| `pending` | the pixels of a load that may not have been decoded yet |
| `mapped` | the pixels of another source, each one transformed |

`ι` names the loads that can be pending. An image without any is an
`Image Empty`; its pixels depend on the files alone.
-/
import Raster.Host.Files
import Raster.Image.Metadata
import Raster.Image.Rect

namespace Raster

/-- Names a pixel source: where its chain began, and how many sources were made one from the
other since then. -/
structure Identity where
  origin : Nat
  age : Nat := 0
  deriving DecidableEq, Repr

/-- The next source of the same chain. -/
def Identity.next (id : Identity) : Identity := { id with age := id.age + 1 }

/-- Produces pixels for rectangles. -/
inductive Source (ι : Type) where
  | direct (id : Identity) (read : Files → Rect → Except Error Bytes)
  | pending (id : Identity) (load : ι)
  | mapped (input : Source ι) (shape : Header) (pixel : Bytes → Option Bytes)

namespace Source

variable {ι σ : Type}

/-- The name of a source; equal along one chain exactly for the same source. -/
def identity : Source ι → Identity
  | direct id _ => id
  | pending id _ => id
  | mapped input _ _ => input.identity.next

/-- Transforms packed pixels one by one; fails where the transformation asks for bytes that a
pixel does not have. -/
def mapPixels (shape : Header) (pixel : Bytes → Option Bytes) (bytes : Bytes) :
    Except Error Bytes :=
  if shape.pixelSize = 0 then .error .pixelOverrun
  else
    match (bytes.chunks shape.pixelSize.toNat).mapM pixel with
    | some pixels => .ok pixels.flatten
    | none => .error .pixelOverrun

/-- Fetches a rectangle in a world `σ` that shows its files and answers pending loads. A mapped
source first checks the rectangle against the image it reads from. -/
def fetch (files : σ → Files) (answer : ι → Rect → σ → Except Error Bytes × σ) :
    Source ι → Rect → σ → Except Error Bytes × σ
  | direct _ read, r, s => (read (files s) r, s)
  | pending _ load, r, s => answer load r s
  | mapped input shape pixel, r, s =>
    if r.fits shape then
      match fetch files answer input r s with
      | (.ok bytes, s) => (mapPixels shape pixel bytes, s)
      | (.error e, s) => (.error e, s)
    else (.error r.outside, s)

end Source

/-- Header, metadata and pixels. -/
structure Image (ι : Type) where
  header : Header
  metadata : Metadata := {}
  source : Source ι

namespace Image

variable {ι σ : Type}

/-- Rows fetched at a time when all pixels are wanted. -/
def stripHeight : Nat := 64

/-- An image over packed pixels in memory; they have to be as many as the header says, and a word
has to count them. -/
def ofBytes (id : Identity) (header : Header) (bytes : Bytes) : Except Error (Image ι) :=
  if UInt64.size ≤ header.imageBytes then .error .overflow
  else if bytes.length = header.imageSize.toNat then
    let packed := bytes.toArray
    .ok { header
          source := .direct id fun _ r => r.cut packed header.lineSize header.pixelSize }
  else
    .error (.headerLoadMismatch
      s!"{bytes.length} bytes of pixels for {header.describe} ({header.imageSize} expected)")

/-- The same pixels under another header, which has to describe the same bytes. -/
def withHeader (image : Image ι) (header : Header) : Image ι := { image with header }

/-- The same pixels, understood another way. -/
def withInterpretation (image : Image ι) (interpretation : Interpretation) : Image ι :=
  image.withHeader { image.header with interpretation }

/-- Whether two images read from the same source. -/
def samePixels (a b : Image ι) : Bool := a.source.identity == b.source.identity

/-- A lazy transformation of every pixel; `pixel` turns one pixel into one of the new shape. -/
def map (image : Image ι) (header : Header) (pixel : Bytes → Option Bytes) : Image ι :=
  { header, metadata := image.metadata, source := .mapped image.source image.header pixel }

/-- Fetches a rectangle, which has to lie inside the image. -/
def fetch (files : σ → Files) (answer : ι → Rect → σ → Except Error Bytes × σ) (image : Image ι)
    (r : Rect) (s : σ) : Except Error Bytes × σ :=
  if r.fits image.header then image.source.fetch files answer r s else (.error r.outside, s)

/-- Fetches rectangles one after the other until one fails, and joins what they give. -/
def fetchEach (files : σ → Files) (answer : ι → Rect → σ → Except Error Bytes × σ)
    (image : Image ι) : List Rect → σ → Except Error Bytes × σ
  | [], s => (.ok [], s)
  | r :: rest, s =>
    match image.fetch files answer r s with
    | (.error e, s) => (.error e, s)
    | (.ok bytes, s) =>
      match fetchEach files answer image rest s with
      | (.error e, s) => (.error e, s)
      | (.ok others, s) => (.ok (bytes ++ others), s)

/-- Fetches every pixel, strip by strip from the top. -/
def fetchAll (files : σ → Files) (answer : ι → Rect → σ → Except Error Bytes × σ)
    (image : Image ι) (s : σ) : Except Error Bytes × σ :=
  image.fetchEach files answer (Rect.strips image.header stripHeight) s

/-- Fetches a rectangle of an image that waits for no load. -/
def fetchFrom (image : Image Empty) (files : Files) (r : Rect) : Except Error Bytes :=
  (image.fetch id (fun load => nomatch load) r files).1

/-- Fetches every pixel of an image that waits for no load. -/
def fetchAllFrom (image : Image Empty) (files : Files) : Except Error Bytes :=
  (image.fetchAll id (fun load => nomatch load) files).1

end Image

end Raster
