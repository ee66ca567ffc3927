/-
# The native loader and saver

The native container holds any image that there can be, with its metadata.

| input | pixels are read |
| --- | --- |
| file | row by row when they are asked for |
| buffer | cut out of the buffer when they are asked for |
| stream | all at once |
-/
import Raster.Image.Store
import Raster.Native.Writer
import Raster.Registry.Basic

namespace Raster

namespace Native

/-- The suffix of containers. -/
def suffix : String := ".nimg"

/-- How the bytes of an input are reached. -/
def mediumOf : Input → Medium
  | .file _ => .file
  | _ => .memory

/-- Reads the container in an input. -/
def layoutOf (context : LoadContext) (host : Host) : Except Error (Layout × Bytes) × Host :=
  match context.input.readAll host with
  | (.error e, host) => (.error e, host)
  | (.ok bytes, host) =>
    match readLayout (mediumOf context.input) bytes with
    | .error fault => (.error (fault.toError context.name), host)
    | .ok layout => (.ok (layout, bytes), host)

/-- Pixels that are read from an open file row by row. -/
def filePixels (node : Node) (h : Header) (offset : UInt64) (order : ByteOrder) : Image Empty where
  header := h
  source := .direct { origin := 0 } fun files r =>
    (readRows (files.packed node) offset h.lineSize h.pixelSize r).map (reorder h.format order)

/-- Pixels that are cut out of a buffer. -/
def bufferPixels (bytes : Bytes) (h : Header) (offset : UInt64) (order : ByteOrder) :
    Image Empty :=
  let packed := (bytes.drop offset.toNat).toArray
  { header := h
    source := .direct { origin := 0 } fun _ r =>
      (r.cut packed h.lineSize h.pixelSize).map (reorder h.format order) }

/-- The pixels of a container. -/
def pixelsOf (context : LoadContext) (layout : Layout) (bytes : Bytes) (files : Files) :
    Except Error (Image Empty) :=
  let h := layout.header
  match context.input with
  | .file path =>
    match files.node path with
    | .error fault => .error (.io fault)
    | .ok node => .ok (filePixels node h layout.pixels layout.order)
  | .buffer _ =>
    match pixelEnd layout.pixels h with
    | none => .error (Fault.endTooLarge.toError context.name)
    | some stop =>
      if bytes.length < stop.toNat then .error (Fault.truncated.toError context.name)
      else .ok (bufferPixels bytes h layout.pixels layout.order)
  | .stream _ =>
    match pixelEnd layout.pixels h with
    | none => .error (Fault.endTooLarge.toError context.name)
    | some stop =>
      match Rect.between? bytes.toArray layout.pixels stop with
      | none => .error (Fault.truncated.toError context.name)
      | some pixels => Image.ofBytes { origin := 0 } h (reorder h.format layout.order pixels)

/-- Whether an input starts like a container. -/
def isA (input : Input) (host : Host) : Except Error Bool × Host :=
  match input.sniff magic.length host with
  | (.ok head, host) => (.ok (head == magic), host)
  | (.error e, host) => (.error e, host)

/-- Files and buffers can be read anywhere; the byte order stands in the container. -/
def flags (input : Input) (host : Host) : Flags × Host :=
  let (head, host) := input.sniff 6 host
  ({ isPartial := input.kind ≠ .stream
     isBigEndian := match head with
       | .ok head => (head[5]?.bind orderOfTag?) = some .big
       | .error _ => false }, host)

/-- Reads header and metadata. -/
def header (context : LoadContext) (host : Host) : Outcome ImageInfo :=
  match layoutOf context host with
  | (.error e, host) => { result := .error e, host }
  | (.ok (layout, _), host) =>
    { result := .ok { header := layout.header, metadata := layout.metadata }, host }

/-- Produces the pixels. -/
def decode (context : LoadContext) (host : Host) : Outcome (Image Empty) :=
  let host := host.warnAll (LoadContext.unknownOptions context.name context.options)
  match layoutOf context host with
  | (.error e, host) => { result := .error e, host }
  | (.ok (layout, bytes), host) => { result := pixelsOf context layout bytes host.files, host }

/-- The loader of containers. -/
def loader : Loader where
  isA := isA
  flags := flags
  header := header
  decode := decode

/-- Makes a container of an image. -/
def encoded (job : SaveJob) : Saving Bytes := do
  Saving.say (LoadContext.unknownOptions job.name job.options)
  let pixels ← Saving.fetchAll job.header
  Saving.say (omitted job.name .machine job.metadata)
  return Native.encode .machine job.header job.metadata pixels

/-- The saver of containers; it has no options. -/
def saver : Saver where
  save job := do
    let bytes ← encoded job
    Saving.put bytes

/-- The descriptor of a loader or saver of containers. -/
def describe (d : Descriptor) : Descriptor :=
  { d.withSuffixes [suffix] with
    description := "imgport native", priority := 200, codings := .every }

/-- The loader and the saver of one kind. -/
def handlersOf (io : IoKind) : List Registration := [
  .loader { describe (.loader "nimg" io) with codings := .plainOnly } loader,
  .saver (describe (.saver "nimg" io)) saver]

/-- The loaders and savers of containers. -/
def handlers : List Registration := IoKind.all.flatMap handlersOf

end Native

end Raster
