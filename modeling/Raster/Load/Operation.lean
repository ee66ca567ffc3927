/-
# One load

A load starts by reading the header. Its pixels are decoded when somebody first
asks for one, checked against the header and put into a store:

| phase | asked for pixels | next |
| --- | --- | --- |
| `headerRead` | decodes | `decoded` or `failed` |
| `decoded` | answers | `decoded` |
| `failed` | refuses | `failed` |

A load that failed, or whose pixels turned out unreadable, is `invalid` for good
and never shared again.
-/
import Raster.Load.Cache
import Raster.Load.Settings
import Raster.Registry.Basic

namespace Raster

/-- How far a load has come. -/
inductive Phase where
  | headerRead
  | decoded (image : Image Empty)
  | failed

/-- The state of one load. -/
structure Operation where
  entry : LoaderEntry
  input : Input
  /-- The options that are left for the loader. -/
  options : Options
  settings : LoadSettings
  flags : Flags
  header : Header
  metadata : Metadata
  /-- The load failed and must not be shared again. -/
  invalid : Bool
  phase : Phase

/-- What a loader sees of a load. -/
def loadContext (entry : LoaderEntry) (input : Input) (options : Options)
    (settings : LoadSettings) : LoadContext where
  name := entry.descriptor.name
  input := input
  options := options
  access := settings.access
  failOn := settings.failOn

/-- A loader that claims both partial and sequential reads is taken at its more careful word. -/
def settleFlags (name : String) (flags : Flags) : Flags × List String :=
  if flags.isPartial && flags.isSequential then
    ({ flags with isPartial := false },
      [s!"{name}: loader is both partial and sequential, treating as sequential"])
  else (flags, [])

/-- Refuses pixels that are not what the header announced. -/
def checkAnnounced (announced found : Header) : Except Error Unit :=
  if announced.isCompatible found then .ok ()
  else
    .error (.headerLoadMismatch s!"header says {announced.describe}, decoded {found.describe}")

namespace Operation

/-- The name of the operation. -/
def name (op : Operation) : String := op.entry.descriptor.name

/-- What the loader sees of the load. -/
def context (op : Operation) : LoadContext :=
  loadContext op.entry op.input op.options op.settings

/-- Whether the load must not be shared: its pixels can be read only once. -/
def isUnshareable (op : Operation) : Bool :=
  op.flags.isSequential && op.settings.access != .random

/-- The metadata of the published image: what the loader found, who it was, and whether pixels
come only from top to bottom. -/
def published (name : String) (access : Access) (metadata : Metadata) : Metadata :=
  let metadata := metadata.insert Metadata.loader (.text name)
  if access = .random then metadata else metadata.insert Metadata.sequential (.int 1)

/-- The phase in which a load starts. -/
def startPhase (name : String) (loader : Loader) (info : ImageInfo) : Except Error Phase :=
  if loader.headerOnly then
    match info.pixels with
    | none => .error (.decode name "header-only loader returned no pixels")
    | some image => (checkAnnounced info.header image.header).map fun _ => .decoded image
  else .ok .headerRead

/-- The store for the pixels. -/
def store (op : Operation) : StoreKind := op.settings.store op.flags op.header.imageSize

/-- Checks what the loader decoded and puts it into its store. -/
def settle (op : Operation) (files : Files) (decoded : Except Error (Image Empty)) :
    Except Error (Image Empty) := do
  let image ← decoded
  checkAnnounced op.header image.header
  image.fill files op.store

/-- The image that the load publishes: its pixels are not decoded before somebody asks. -/
def image (op : Operation) (id : LoadId) (identity : Identity) : Image LoadId where
  header := op.header
  metadata := op.metadata
  source := .pending identity id

end Operation

end Raster
