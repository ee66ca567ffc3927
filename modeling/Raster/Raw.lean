/-
# Raw samples

Files that hold nothing but samples. The shape comes from options, so the loader
is never found by discovery and has to be named.

| option | default | |
| --- | --- | --- |
| `width`, `height`, `bands` | | at least 1 |
| `format` | `uchar` | a band format's name |
| `interpretation` | `multiband` | an interpretation's name |
| `offset` | `0` | bytes before the first sample |

Samples are in machine byte order. A file has to hold all that its shape asks
for.
-/
import Raster.Image.Store
import Raster.Registry.Basic

namespace Raster

namespace Raw

/-- What the options say about a file. -/
structure Params where
  header : Header
  /-- Bytes before the first sample. -/
  offset : UInt64
  deriving DecidableEq

/-- Takes a dimension out of an option list. -/
def takeDimension (options : Options) (key : String) : Except Error (UInt32 × Options) :=
  match options.takeParsed key (Options.number Number.word32) with
  | .error e => .error e
  | .ok (none, _) => .error (.badOption key "required")
  | .ok (some n, options) =>
    if n = 0 then .error (.badOption key "must be positive") else .ok (n, options)

/-- Takes a name out of an option list. -/
def takeNamed {α : Type} (options : Options) (key kind : String) (ofName? : String → Option α)
    (default : α) : Except Error (α × Options) :=
  match options.value? key with
  | none => .ok (default, options)
  | some name =>
    match ofName? name with
    | some a => .ok (a, options.unset key)
    | none => .error (.badOption key s!"unknown {kind} \"{name}\"")

/-- What the options say, and the options that say nothing about the shape. -/
def Params.take (options : Options) : Except Error (Params × Options) := do
  let (width, options) ← takeDimension options "width"
  let (height, options) ← takeDimension options "height"
  let (bands, options) ← takeDimension options "bands"
  let (format, options) ← takeNamed options "format" "band format" BandFormat.ofName? .uchar
  let (interpretation, options) ←
    takeNamed options "interpretation" "interpretation" Interpretation.ofName? .multiband
  let (offset, options) ← options.takeParsed "offset" (Options.number Number.word64)
  return ({ header := { width, height, bands, format, interpretation }
            offset := offset.getD 0 }, options)

/-- Bytes that a file has to have, if that is a 64-bit number. -/
def Params.needed (p : Params) : Option UInt64 :=
  p.header.checkedImageSize.bind (Header.checkedAdd p.offset)

/-- The open file of a load, if it holds what its shape asks for. -/
def openChecked (context : LoadContext) (p : Params) (path : String) (files : Files) :
    Except Error Node := do
  let node ← (files.node path).mapError .io
  match p.needed with
  | none => throw (context.fault "image too large")
  | some needed =>
    let content ← (files.packed node).mapError .io
    if content.size < needed.toNat then
      throw (context.fault
        s!"file has {content.size} bytes, {p.header.describe} needs {needed}")
    return node

/-- The shape of a load and its open file. -/
def examine (context : LoadContext) (host : Host) : Except Error (Params × Node) × Host :=
  match context.input with
  | .file path =>
    match Params.take context.options with
    | .error e => (.error e, host)
    | .ok (p, rest) =>
      let host := host.warnAll (LoadContext.unknownOptions context.name rest)
      ((openChecked context p path host.files).map fun node => (p, node), host)
  | _ => (.error (context.fault "raw data can only be read from a file"), host)

/-- The samples of an open file. -/
def pixels (p : Params) (node : Node) : Image Empty where
  header := p.header
  source := .direct { origin := 0 } fun files r =>
    readRows (files.packed node) p.offset p.header.lineSize p.header.pixelSize r

/-- The loader of raw samples. -/
def loader : Loader where
  sniffs := false
  isA _ host := (.ok false, host)
  flags _ host := ({ isPartial := true }, host)
  header context host :=
    let (found, host) := examine context host
    { result := found.map fun (p, _) => { header := p.header }, host }
  decode context host :=
    let (found, host) := examine context host
    { result := found.map fun (p, node) => pixels p node, host }

/-- The loader of raw samples, which reads files only. -/
def handlers : List Registration := [
  .loader { (Descriptor.loader "raw" .file).withSuffixes [".raw"] with
    description := "load raw data from a file" } loader]

end Raw

end Raster
