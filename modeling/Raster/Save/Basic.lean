/-
# Saves

A save makes the image ready and lets the saver do what it does with it and the target
(`perform`). What reaches the target is up to the saver.
-/
import Raster.Save.Ready
import Raster.World

namespace Raster

/-- Where a save writes to. -/
inductive Target where
  | file (path : String)
  /-- Bytes that the output is put behind. -/
  | buffer (bytes : Bytes)
  /-- What a stream has received. -/
  | stream (received : Bytes)
  deriving DecidableEq

namespace Target

/-- The kind of a target. -/
def kind : Target → IoKind
  | file _ => .file
  | buffer _ => .buffer
  | stream _ => .stream

/-- The kind of a target in an error's words. -/
def kindLabel (target : Target) : String :=
  match target.kind with
  | .file => "File"
  | .buffer => "Buffer"
  | .stream => "Stream"

/-- The target after some bytes were written to it, and the files. -/
def write (target : Target) (bytes : Bytes) (files : Files) : Except Error (Target × Files) :=
  match target with
  | file path =>
    match files.write path bytes with
    | .ok files => .ok (file path, files)
    | .error fault => .error (.io fault)
  | buffer old => .ok (buffer (old ++ bytes), files)
  | stream received => .ok (stream (received ++ bytes), files)

end Target

/-- What became of a save. -/
structure Receipt where
  /-- The operation that saved. -/
  saver : String
  /-- The image that the saver received. -/
  ready : Image LoadId
  /-- The options that the saver received. -/
  options : Options

namespace Save

/-- What the saver sees of a save. -/
def job (name : String) (ready : Image LoadId) (options : Options) : SaveJob where
  name := name
  header := ready.header
  metadata := ready.metadata
  options := options

/-- Does with an image and a target what a saver does. -/
def perform {α : Type} (image : Image LoadId) :
    Saving α → Target × World → Except Error α × Target × World
  | .done a, s => (.ok a, s)
  | .fail e, s => (.error e, s)
  | .warn messages next, (target, w) => perform image next (target, w.warnAll messages)
  | .fetch rects next, (target, w) =>
    let (pixels, w) := image.fetchEach World.files World.answer rects w
    perform image (next pixels) (target, w)
  | .write bytes next, (target, w) =>
    match target.write bytes w.files with
    | .error e => perform image (next (.error e)) (target, w)
    | .ok (target, files) =>
      perform image (next (.ok ())) (target, { w with host := { w.host with files } })

/-- Saves an image; the options are those of the save and of the saver. -/
def run (entry : SaverEntry) (image : Image LoadId) (target : Target) (options : Options)
    (config : SaveConfig) (colour : ColourEngine LoadId) (w : World) :
    Except Error Receipt × Target × World :=
  let name := entry.descriptor.name
  match SaveSettings.take options config with
  | .error e => (.error e, target, w)
  | .ok (settings, options) =>
    if target.kind ≠ entry.descriptor.io then
      (.error (.encode name s!"cannot write to a {target.kindLabel} target"), target, w)
    else
      match ready entry.descriptor settings colour w.files image with
      | .error e => (.error e, target, w)
      | .ok (image, warnings) =>
        let (saved, s) := perform image (entry.saver.save (job name image options))
          (target, w.warnAll warnings)
        (saved.map fun _ => { saver := name, ready := image, options }, s)

end Save

end Raster
