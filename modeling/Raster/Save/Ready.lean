/-
# The ready image

What a saver receives: the caller's image brought to a shape that the saver can
write, with a metadata of its own.

| step | effect |
| --- | --- |
| convert | pixels in a shape that the descriptor allows |
| profile | the ICC profile of a file is embedded |
| retain | only the metadata to keep survives |
| page height | is set where it was asked for |

The caller's image stays as it is.
-/
import Raster.Normalize
import Raster.Registry.Descriptor
import Raster.Retain
import Raster.Save.Settings

namespace Raster

namespace Save

variable {ι : Type}

/-- Embeds the profile of a file. -/
def embedProfile (files : Files) (profile : Option String) (image : Image ι) :
    Except Error (Image ι) :=
  match profile with
  | none => .ok image
  | some path =>
    match files.read path with
    | .ok bytes => .ok { image with metadata := image.metadata.insert Metadata.icc (.blob bytes) }
    | .error fault => .error (.io fault)

/-- Sets the page height, and says where the pages do not fill the image. -/
def setPageHeight (name : String) (pageHeight : Option UInt32) (image : Image ι) :
    Image ι × List String :=
  match pageHeight with
  | none => (image, [])
  | some rows =>
    ({ image with
      metadata := image.metadata.insert Metadata.pageHeight (.int (Int64.ofNat rows.toNat)) },
      if image.header.height % rows = 0 then []
      else [s!"{name}: page height {rows} does not divide image height {image.header.height}"])

/-- The image that a saver receives, and what is warned about on the way. -/
def ready (descriptor : Descriptor) (settings : SaveSettings) (colour : ColourEngine ι)
    (files : Files) (image : Image ι) : Except Error (Image ι × List String) := do
  let converted ← Normalize.convertSaveable image descriptor.saveable descriptor.table
    descriptor.codings settings.background colour
  let embedded ← embedProfile files settings.profile converted
  let (retained, exifWarnings) := embedded.retain settings.keep
  let (paged, pageWarnings) := setPageHeight descriptor.name settings.pageHeight retained
  return (paged, exifWarnings ++ pageWarnings)

end Save

end Raster
