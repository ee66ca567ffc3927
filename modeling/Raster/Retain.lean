/-
# What a save keeps

Before a save an image's metadata is brought up to date and cut down:

| step | when | effect |
| --- | --- | --- |
| EXIF | EXIF is kept | the block is rebuilt from header and fields |
| strip | something is dropped | fields of dropped categories go |
| profile | ICC is kept | a profile that does not fit the image goes |

Fields without a category are never touched.
-/
import Raster.Exif.Metadata
import Raster.Icc
import Raster.Image.Basic
import Raster.Keep

namespace Raster

namespace Metadata

/-- Rebuilds the EXIF block where it is kept, and says what went wrong with it. -/
def refreshExif (metadata : Metadata) (header : Header) (keep : Keep) : Metadata × List String :=
  if keep.exif then Exif.update metadata header else (metadata, [])

/-- Drops the fields of categories that are not kept. -/
def strip (metadata : Metadata) (keep : Keep) : Metadata :=
  metadata.filter fun name _ => keep.keepsField name

/-- Drops a profile that does not fit the image. -/
def dropUnfitProfile (metadata : Metadata) (header : Header) (keep : Keep) : Metadata :=
  if keep.icc then
    match metadata.getBlob Metadata.icc with
    | some profile =>
      match Icc.checkCompatible profile header with
      | .ok _ => metadata
      | .error _ => metadata.erase Metadata.icc
    | none => metadata
  else metadata

/-- The metadata that survives a save, and what went wrong on the way. -/
def retain (metadata : Metadata) (header : Header) (keep : Keep) : Metadata × List String :=
  let (metadata, warnings) := metadata.refreshExif header keep
  ((metadata.strip keep).dropUnfitProfile header keep, warnings)

end Metadata

/-- The image with the metadata that survives a save. -/
def Image.retain {ι : Type} (image : Image ι) (keep : Keep) : Image ι × List String :=
  let (metadata, warnings) := image.metadata.retain image.header keep
  ({ image with metadata }, warnings)

end Raster
