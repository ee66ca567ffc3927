/-
# EXIF in metadata

A loader attaches a block to an image: the block itself as `exif-data`, a text
field for every known tag, and what the tags say about orientation and
resolution. Before a save the block is rebuilt from the image's current header
and fields:

| in the image | in the block |
| --- | --- |
| text field | its text up to the first ` (`; no field, no tag |
| `orientation` | clamped to `1..8` |
| resolution, `resolution-unit` | always written |
| width and height | written where the block has them |

Everything else in the block stays as it was. A block that cannot be read is left
alone.
-/
import Raster.Exif.Tags
import Raster.Image.Metadata
import Raster.Image.Header

namespace Raster

namespace Exif

/-- Puts a block on an image that is being loaded. -/
def attach (metadata : Metadata) (header : Header) (blob : Bytes) : Metadata × Header :=
  match parse blob with
  | .error _ => (metadata.insert Metadata.exif (.blob blob), header)
  | .ok exif =>
    let metadata := metadata.insert Metadata.exif (.blob (marker ++ unmarked blob))
    let metadata := exif.fields.foldl (fun m f => m.insert f.1 (.text f.2)) metadata
    let metadata := match exif.orientation with
      | some n => metadata.insert Metadata.orientation (.int (Int64.ofNat n.toNat))
      | none => metadata
    match exif.resolution with
    | some (xres, yres, unit) =>
      if 0.0 < xres && 0.0 < yres then
        (metadata.insert Metadata.resolutionUnit (.text unit.name),
          { header with xres := .ofFloat xres, yres := .ofFloat yres })
      else (metadata, header)
    | none => (metadata, header)

/-- The characters before the first ` (`. -/
def beforeDetail : List Char → List Char
  | [] => []
  | c :: rest => if c = ' ' ∧ rest.head? = some '(' then [] else c :: beforeDetail rest

/-- The text of a field, without the details in brackets. -/
def fieldText (value : String) : String := String.ofList (beforeDetail value.toList)

/-- Whether a name is that of a tag field. -/
def isFieldName (name : String) : Bool := Text.startsWith name fieldStart

/-- Writes the text field of a tag into its directory, or drops the tag where the field is
missing. -/
def updateTag (metadata : Metadata) (exif : Exif) (info : TagInfo) : Exif :=
  exif.edit info.home fun entries =>
    match metadata.getText info.field with
    | some value => put (textEntry info.tag (fieldText value)) entries
    | none => drop info.tag entries

/-- Writes the text fields into the block, if there is any tag field at all. -/
def updateText (metadata : Metadata) (exif : Exif) : Exif :=
  if metadata.names.any isFieldName then
    (tags.filter (·.isText)).foldl (updateTag metadata) exif
  else exif

/-- The block to rebuild: the one that is there, or a new one for an image that has tag fields
only. -/
def toRebuild (metadata : Metadata) : Except Error (Option Exif) :=
  match metadata.getBlob Metadata.exif with
  | some blob => (parse blob).map some
  | none => .ok (if metadata.names.any isFieldName then some empty else none)

/-- The block with what the image says. -/
def rebuild (metadata : Metadata) (header : Header) (exif : Exif) : Exif :=
  let unit := ResolutionUnit.ofMetadata (metadata.getText Metadata.resolutionUnit)
  let exif := updateText metadata exif
  let exif := exif.setResolution header.xres.toFloat header.yres.toFloat unit
  let exif := exif.setDimensions header.width header.height
  match metadata.getInt Metadata.orientation with
  | some n => exif.setOrientation (UInt16.ofNat (max 1 (min 8 n.toInt)).toNat)
  | none => exif

/-- Rebuilds an image's block, and says so where it cannot be read. -/
def update (metadata : Metadata) (header : Header) : Metadata × List String :=
  match toRebuild metadata with
  | .error e => (metadata, [s!"exif: not updating unreadable blob: {e.message}"])
  | .ok none => (metadata, [])
  | .ok (some exif) =>
    (metadata.insert Metadata.exif (.blob (rebuild metadata header exif).toBytes), [])

end Exif

end Raster
