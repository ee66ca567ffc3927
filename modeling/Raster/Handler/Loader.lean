/-
# Loaders

A loader reads an image in two steps, so that opening one is cheap: `header` says
what the pixels are without decoding them, `decode` produces them. A loader for
which that makes no sense hands over the pixels together with the header.

Loaders see the host and may change it, by moving a stream or by warning. A step
may also ask that the load it belongs to is not shared with later ones.
-/
import Raster.Access
import Raster.Capability
import Raster.Host.Basic
import Raster.Image.Basic
import Raster.Options

namespace Raster

/-- What a loader sees of one load. -/
structure LoadContext where
  /-- The operation, such as `pngload_buffer`. -/
  name : String
  input : Input
  /-- The options that are left for the loader. -/
  options : Options
  access : Access
  failOn : FailOn

namespace LoadContext

/-- The loader's complaint about an input. -/
def fault (context : LoadContext) (message : String) : Error := .decode context.name message

/-- What a loader says about options that it does not know. -/
def unknownOptions (name : String) (options : Options) : List String :=
  options.toList.map fun (key, value) => s!"{name}: ignoring unknown option {key}={value}"

end LoadContext

/-- What a header step finds. -/
structure ImageInfo where
  header : Header
  metadata : Metadata := {}
  /-- The pixels, from a loader that has no decode step. -/
  pixels : Option (Image Empty) := none

/-- How a loader's step ended. -/
structure Outcome (α : Type) where
  result : Except Error α
  host : Host
  /-- The loader asks that the load is not shared. -/
  unshared : Bool := false

/-- A decoder of one format. -/
structure Loader where
  /-- Whether `isA` can tell the format; else only the file name's suffix does. -/
  sniffs : Bool := true
  /-- Whether `header` hands over the pixels. -/
  headerOnly : Bool := false
  /-- Looks at the leading bytes of an input. -/
  isA : Input → Host → Except Error Bool × Host
  /-- What can be done with an input. -/
  flags : Input → Host → Flags × Host
  /-- Reads the header and the metadata. -/
  header : LoadContext → Host → Outcome ImageInfo
  /-- Produces the pixels. -/
  decode : LoadContext → Host → Outcome (Image Empty)

end Raster
