/-
# Loaders and savers of the picture formats

Loading reads the picture's shape, its ICC profile and its EXIF block, and decodes
all pixels in one go. Saving writes the pixels and, where the format has a place
for it, the profile; no other metadata is written. An engine does the reading and the
encoding.
-/
import Raster.Codec.Engine
import Raster.Exif.Metadata
import Raster.Registry.Basic

namespace Raster

namespace Codec

variable (engine : PictureEngine) (codec : Codec)

/-- Whether an input is of a format. -/
def isA (input : Input) (host : Host) : Except Error Bool × Host :=
  match input.sniff sniffLength host with
  | (.ok head, host) => (.ok (engine.guess head == some codec), host)
  | (.error e, host) => (.error e, host)

/-- The shape of some samples, if an image can have it. -/
def shapeOf (context : LoadContext) (colour : ColourType) :
    Except Error (UInt32 × BandFormat × Interpretation) :=
  match colour.shape with
  | some shape => .ok shape
  | none => .error (context.fault s!"unsupported colour type {colour.name}")

/-- The profile of a picture as metadata, and what is warned about. -/
def profileOf (name : String) (p : PictureInfo) : Metadata × List String :=
  match p.icc with
  | .ok (some profile) => (Fields.empty.insert Metadata.icc (.blob profile), [])
  | .ok none => ({}, [])
  | .error e => ({}, [s!"{name}: unreadable ICC profile: {e}"])

/-- The header and metadata in the bytes of a picture, and what is warned about. -/
def infoIn (context : LoadContext) (bytes : Bytes) : Except Error (ImageInfo × List String) := do
  let p ← (engine.read codec bytes).mapError context.fault
  let (bands, format, interpretation) ← shapeOf context p.colour
  let header : Header := { width := p.width, height := p.height, bands, format, interpretation }
  let (metadata, warnings) := profileOf context.name p
  match p.exif with
  | .ok (some blob) =>
    let (metadata, header) := Exif.attach metadata header blob
    return ({ header, metadata }, warnings)
  | .ok none => return ({ header, metadata }, warnings)
  | .error e => return ({ header, metadata }, warnings ++ [s!"{context.name}: unreadable EXIF: {e}"])

/-- The decoded image in the bytes of a picture. -/
def imageIn (context : LoadContext) (bytes : Bytes) :
    Except Error (Image Empty × List String) := do
  let p ← (engine.decode codec bytes).mapError context.fault
  let (bands, format, interpretation) ← shapeOf context p.colour
  let header : Header := { width := p.width, height := p.height, bands, format, interpretation }
  let image ← Image.ofBytes { origin := 0 } header p.pixels
  return (image, [])

/-- Reads an input, looks at its bytes and warns about what is seen there. -/
def examine {α : Type} (context : LoadContext) (look : Bytes → Except Error (α × List String))
    (host : Host) : Outcome α :=
  match context.input.readAll host with
  | (.error e, host) => { result := .error e, host }
  | (.ok bytes, host) =>
    match look bytes with
    | .error e => { result := .error e, host }
    | .ok (a, warnings) => { result := .ok a, host := host.warnAll warnings }

/-- The loader of a format; it has no options. -/
def loader : Loader where
  isA := codec.isA engine
  flags _ host := ({}, host)
  header context host := examine context (codec.infoIn engine context) host
  decode context host :=
    examine context (codec.imageIn engine context)
      (host.warnAll (LoadContext.unknownOptions context.name context.options))

/-- Sets up the encoder of a format from options; what is left of them is unknown. -/
def takeOptions (options : Options) : Except Error (Encoder × Options) :=
  match codec with
  | png => do
    let (level, options) ← options.takeParsed "compression" (Options.number Number.byte)
    match level with
    | none => return (.png .default, options)
    | some n =>
      if n ≤ 3 then return (.png .fast, options)
      else if n ≤ 6 then return (.png .default, options)
      else if n ≤ 9 then return (.png .best, options)
      else throw (.badOption "compression" s!"{n} is not in 0-9")
  | jpeg => do
    let (quality, options) ← options.takeParsed "q" (Options.number Number.byte)
    let quality := quality.getD 75
    if quality < 1 ∨ 100 < quality then throw (.badOption "Q" s!"{quality} is not in 1-100")
    return (.jpeg quality, options)
  | tiff => return (.tiff, options)
  | webp => return (.webp, options)

/-- Refuses samples that no picture has. -/
def accept (job : SaveJob) : Except Error ColourType :=
  match ColourType.of? job.header.bands job.header.format with
  | some colour => .ok colour
  | none => .error (job.fault s!"cannot write {job.header.describe}")

/-- The picture of a save. -/
def pictureOf (job : SaveJob) (colour : ColourType) (pixels : Bytes) : Pixmap where
  width := job.header.width
  height := job.header.height
  colour := colour
  pixels := pixels

/-- Makes a picture of an image, and warns about the options that it did not know. -/
def encoded (job : SaveJob) : Saving Bytes := do
  let colour ← Saving.lift (accept job)
  let pixels ← Saving.fetchAll job.header
  let (encoder, unknown) ← Saving.lift (codec.takeOptions job.options)
  let written := engine.encode encoder (job.metadata.getBlob Metadata.icc)
    (pictureOf job colour pixels)
  let bytes ← Saving.lift (written.mapError job.fault)
  Saving.say (LoadContext.unknownOptions job.name unknown)
  return bytes

/-- The saver of a format. -/
def saver : Saver where
  save job := do
    let bytes ← codec.encoded engine job
    Saving.put bytes

/-- A descriptor with what loader and saver of a format have in common. -/
def describe (d : Descriptor) : Descriptor :=
  { d.withSuffixes codec.suffixes with
    description := codec.description, priority := codec.priority }

/-- The descriptor of a format's saver. -/
def saverDescriptor (io : IoKind) : Descriptor :=
  { codec.describe (.saver codec.name io) with saveable := codec.saveable, table := codec.table }

/-- The loader and the saver of one format and kind. -/
def handlersOf (io : IoKind) : List Registration := [
  .loader (codec.describe (.loader codec.name io)) (codec.loader engine),
  .saver (codec.saverDescriptor io) (codec.saver engine)]

/-- The loaders and savers of every format. -/
def handlers : List Registration :=
  all.flatMap fun codec => IoKind.all.flatMap (codec.handlersOf engine)

end Codec

end Raster
