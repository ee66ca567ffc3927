/-
# Handlers that follow a script

Stand-ins for real handlers, for trying out discovery, sharing and failure. A
scripted loader knows its format by some leading bytes and makes up its pixels:
sample `i`, row by row and band by band, is `i mod 100`. A scripted saver writes
the same four bytes for every image.

| behaviour | effect |
| --- | --- |
| `claimFails` | looking for the leading bytes fails |
| `consumes` | looking at a stream leaves it at its end |
| `headerFails` | there is no header |
| `headerOnly` | the pixels come with the header |
| `noPixels` | as `headerOnly`, but without the pixels |
| `invalidates` | the load asks not to be shared |
| `mismatches` | the pixels are one column wider than announced |
| `fetchFails` | no pixel can be fetched |

While its device is out of order, a scripted loader decodes nothing.
-/
import Raster.Colour
import Raster.Handler.Loader
import Raster.Handler.Saver

namespace Raster

/-- A way in which a scripted loader behaves. -/
inductive Behaviour where
  | claimFails
  | consumes
  | headerFails
  | headerOnly
  | noPixels
  | invalidates
  | mismatches
  | fetchFails
  deriving DecidableEq, Repr

/-- What a scripted loader does. -/
structure LoaderScript where
  /-- The device that it decodes with. -/
  device : Nat
  /-- The leading bytes of its format; without them it cannot sniff. -/
  magic : Option Bytes := none
  header : Header := { width := 8, height := 4, bands := 3, format := .uchar, interpretation := .srgb }
  flags : Flags := {}
  behaviours : List Behaviour := []

namespace LoaderScript

/-- Whether the loader behaves in some way. -/
def does (script : LoaderScript) (behaviour : Behaviour) : Bool :=
  script.behaviours.contains behaviour

/-- The leading bytes that the loader looks at. -/
def leadingBytes (script : LoaderScript) (magic : Bytes) (input : Input) (host : Host) :
    Except Error Bytes × Host :=
  if script.does .consumes ∧ input.kind = .stream then input.readAll host
  else input.sniff magic.length host

/-- Whether the leading bytes are those of the format. -/
def isA (script : LoaderScript) (input : Input) (host : Host) : Except Error Bool × Host :=
  if script.does .claimFails then (.error (.colour "is_a failed"), host)
  else
    match script.magic with
    | none => (.ok false, host)
    | some magic =>
      let (leading, host) := script.leadingBytes magic input host
      (leading.map fun bytes => magic.isPrefixOf bytes, host)

/-- The made-up pixels of a shape. -/
def samples (header : Header) : Bytes :=
  (List.range (header.width.toNat * header.height.toNat * header.bands.toNat)).flatMap fun i =>
    header.format.write (Float.ofNat (i % 100))

/-- The image that the loader decodes. -/
def image (script : LoaderScript) : Except Error (Image Empty) :=
  if script.does .fetchFails then
    .ok { header := script.header
          source := .direct { origin := 0 } fun _ _ => .error (.colour "no pixels") }
  else
    let header :=
      if script.does .mismatches then { script.header with width := script.header.width + 1 }
      else script.header
    Image.ofBytes { origin := 0 } header (samples header)

/-- What the loader was told about a load. -/
def contextText (context : LoadContext) : String :=
  let options := context.options.toList.map fun (key, value) => s!"{key}={value}"
  s!"{context.access.label};{context.failOn.label};" ++ Text.join "," options

/-- The header and metadata that the loader reads. -/
def info (script : LoaderScript) (context : LoadContext) : Except Error ImageInfo := do
  if script.does .headerFails then throw (context.fault "bad header")
  let pixels ← if script.does .headerOnly then script.image.map some else pure none
  return { header := script.header
           metadata := Fields.empty.insert "fake-context" (.text (contextText context))
           pixels }

/-- The loader of a script. -/
def loader (script : LoaderScript) : Loader where
  sniffs := script.magic.isSome
  headerOnly := script.does .headerOnly || script.does .noPixels
  isA := script.isA
  flags _ host := (script.flags, host)
  header context host :=
    { result := script.info context, host, unshared := script.does .invalidates }
  decode context host :=
    { result := if host.isBroken script.device then .error (context.fault "corrupt data")
        else script.image
      host }

end LoaderScript

/-- The saver that writes the same bytes for every image, or fails with every image. -/
def Saver.scripted (fails : Bool) : Saver where
  save job := do
    if fails then
      .fail (job.fault "cannot encode")
    else
      let _ ← Saving.fetchAll job.header
      Saving.put (Bytes.ofText "FAKE")

/-- A colour engine that converts nothing. -/
def ColourEngine.refusing {ι : Type} : ColourEngine ι where
  colourspace _ target := .error (.colour s!"refused {target.name}")
  importProfile _ embedded := .error (.colour s!"refused import {embedded}")
  exportProfile _ depth := .error (.colour s!"refused export {depth}")

end Raster
