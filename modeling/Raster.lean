import Raster.Main
import Raster.Handler.Scripted
import Raster.Proofs.ByteSize
import Raster.Proofs.Config
import Raster.Proofs.Image.Coding
import Raster.Proofs.Image.Extraction
import Raster.Proofs.Image.Offsets
import Raster.Proofs.Image.Store
import Raster.Proofs.Native.AnyBytes
import Raster.Proofs.Native.Delimited
import Raster.Proofs.Native.Generations
import Raster.Proofs.Load.Key
import Raster.Proofs.Load.LazyDecode
import Raster.Proofs.Load.Revalidate
import Raster.Proofs.Load.Transparent
import Raster.Proofs.Normalize.Casting
import Raster.Proofs.Normalize.Encodable
import Raster.Proofs.Exif.Acceptance
import Raster.Proofs.Exif.Amplification
import Raster.Proofs.Exif.Headroom
import Raster.Proofs.Exif.Removal
import Raster.Proofs.Options.Composition
import Raster.Proofs.Raw
import Raster.Proofs.Registry.Savers
import Raster.Proofs.Retain
import Raster.Proofs.Save.Untouched
import Raster.Proofs.Save.Generations
import Raster.Proofs.Save.Dropped
