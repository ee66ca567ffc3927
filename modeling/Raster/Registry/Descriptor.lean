/-
# Descriptors

What a handler says about itself. The name of its operation is made from format,
direction and input kind:

| | load | save |
| --- | --- | --- |
| file | `pngload` | `pngsave` |
| buffer | `pngload_buffer` | `pngsave_buffer` |
| stream | `pngload_source` | `pngsave_target` |

Suffixes are kept in lower case, from their last dot on.
-/
import Raster.Capability
import Raster.Host.Basic
import Raster.Options

namespace Raster

/-- Loads or saves. -/
inductive Direction where
  | load
  | save
  deriving DecidableEq, Repr

/-- The name of a direction. -/
def Direction.name : Direction → String
  | .load => "load"
  | .save => "save"

/-- What the name of an operation ends in. -/
def IoKind.ending : IoKind → Direction → String
  | .file, _ => ""
  | .buffer, _ => "_buffer"
  | .stream, .load => "_source"
  | .stream, .save => "_target"

/-- From the last dot on; a text without a dot gets one in front. -/
def suffixChars (cs : List Char) : List Char :=
  match Text.cutLast '.' cs with
  | some (_, tail) => '.' :: tail
  | none => '.' :: cs

/-- The suffix that a file name or suffix stands for: options cut off, in lower case, from the
last dot on. -/
def normalSuffix (name : String) : String :=
  let (name, _) := Options.splitName name
  String.ofList (suffixChars ((Text.trimChars name.toList).map Char.toLower))

/-- What a handler says about itself. -/
structure Descriptor where
  format : String
  direction : Direction
  io : IoKind
  description : String
  priority : Int := 0
  suffixes : List String := []
  /-- Never found by discovery. -/
  blocked : Bool := false
  saveable : Saveable := { any := true }
  table : FormatTable := .identity
  codings : CodingSet := .plainOnly

namespace Descriptor

/-- The descriptor of a loader. -/
def loader (format : String) (io : IoKind) : Descriptor :=
  { format, io, direction := .load, description := format }

/-- The descriptor of a saver. -/
def saver (format : String) (io : IoKind) : Descriptor :=
  { format, io, direction := .save, description := format }

/-- The descriptor with suffixes, given as file names or suffixes. -/
def withSuffixes (d : Descriptor) (suffixes : List String) : Descriptor :=
  { d with suffixes := suffixes.map normalSuffix }

/-- The name of the operation. -/
def name (d : Descriptor) : String := d.format ++ d.direction.name ++ d.io.ending d.direction

/-- Whether a file name ends in one of the suffixes, ASCII case aside. -/
def matchesFilename (d : Descriptor) (filename : String) : Bool :=
  let lower := Text.lower filename
  d.suffixes.any fun s => Text.endsWith lower s

/-- Whether discovery may pick the handler; raw samples are read only by name. -/
def isDiscoverable (d : Descriptor) : Bool := !d.blocked && !Text.startsWith d.name "rawload"

end Descriptor

end Raster
