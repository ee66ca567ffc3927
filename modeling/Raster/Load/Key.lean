/-
# Keys of loads

Two loads with one key share their work. A key is the digest of everything that
decides what a load produces:

| part | bytes |
| --- | --- |
| loader | its operation's name, a zero |
| input | `file`, a zero and the path, or `buffer`, a zero and the content's digest; a zero |
| options | `key=value` and a zero for each, in key order |
| settings | access, fail level, memory, disc, threshold, joined by colons |

Files are keyed by path, so one that is rewritten in place keeps its key. Streams
have no key.
-/
import Raster.Digest
import Raster.Host.Basic
import Raster.Load.Settings

namespace Raster

namespace LoadKey

/-- The part of an input, if it can have a key. -/
def ofInput : Input → Option Bytes
  | .file path => some (Bytes.ofText "file" ++ 0 :: Bytes.ofText path)
  | .buffer bytes => some (Bytes.ofText "buffer" ++ 0 :: sha256 bytes)
  | .stream _ => none

/-- The part of the options. -/
def ofOptions (options : Options) : Bytes :=
  options.toList.flatMap fun (key, value) => Bytes.ofText key ++ 61 :: Bytes.ofText value ++ [0]

/-- The part of the settings. -/
def ofSettings (s : LoadSettings) : Bytes :=
  Bytes.ofText (Text.join ":"
    [s.access.label, s.failOn.label, toString s.memory, toString s.disc, toString s.discThreshold])

/-- The bytes that a key is the digest of. -/
def material (loader : String) (input : Input) (options : Options) (s : LoadSettings) :
    Option Bytes :=
  (ofInput input).map fun input =>
    Bytes.ofText loader ++ 0 :: input ++ 0 :: ofOptions options ++ ofSettings s

end LoadKey

/-- The key of a load, for inputs that can be loaded twice. -/
def loadKey (loader : String) (input : Input) (options : Options) (s : LoadSettings) :
    Option String :=
  (LoadKey.material loader input options s).map fun bytes => (sha256 bytes).toHex

end Raster
