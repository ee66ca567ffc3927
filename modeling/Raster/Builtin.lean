/-
# The built-in handlers

| format | load | save | suffixes |
| --- | --- | --- | --- |
| PNG | file, buffer, stream | file, buffer, stream | `.png` |
| JPEG | file, buffer, stream | file, buffer, stream | `.jpg` `.jpeg` `.jpe` |
| TIFF | file, buffer, stream | file, buffer, stream | `.tif` `.tiff` |
| WebP | file, buffer, stream | file, buffer, stream | `.webp` |
| native | file, buffer, stream | file, buffer, stream | `.nimg` |
| raw | file | | `.raw` |
-/
import Raster.Codec.Handler
import Raster.Native.Handler
import Raster.Raw

namespace Raster

namespace Registry

/-- The registry of the built-in handlers, with an engine for pictures. -/
def builtin (engine : PictureEngine) : Registry :=
  .ofRegistrations (Codec.handlers engine ++ Native.handlers ++ Raw.handlers)

end Registry

end Raster
