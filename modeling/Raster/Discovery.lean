/-
# Finding a loader

Which loader opens an input. Loaders that discovery may pick are asked in the
registry's order, and the first that says yes wins; a complaint ends the search, and
so does a stream that cannot be put back to its start.

| input | asked | then |
| --- | --- | --- |
| file | loaders that sniff | the first other loader with a matching suffix |
| buffer | all | |
| stream | all, each from the start of the stream | |

A file that is missing or a directory is refused before anybody is asked.
-/
import Raster.World

namespace Raster

namespace World

/-- Refuses a path that leads nowhere or to a directory. -/
def checkFile (w : World) (path : String) : Except Error Unit :=
  if !w.files.pathExists path then .error (.inputNotFound path)
  else if w.files.isDirectory path then .error (.inputIsDirectory path)
  else .ok ()

/-- Puts the stream of an input back to its start. -/
def rewind (w : World) : Input → Except Error Unit × World
  | .stream id =>
    let (sought, host) := w.host.rewind id
    (sought, { w with host })
  | _ => (.ok (), w)

/-- The first loader that takes the input for its own. -/
def firstToClaim (input : Input) : List LoaderEntry → World → Except Error (Option LoaderEntry) × World
  | [], w => (.ok none, w)
  | entry :: rest, w =>
    match w.rewind input with
    | (.error e, w) => (.error e, w)
    | (.ok _, w) =>
      match w.ask entry input with
      | (.error e, w) => (.error e, w)
      | (.ok true, w) => (.ok (some entry), w)
      | (.ok false, w) => firstToClaim input rest w

end World

namespace Registry

/-- The loaders of one kind that discovery may pick. -/
def candidates (r : Registry) (io : IoKind) : List LoaderEntry :=
  r.loaders.filter fun e => e.descriptor.io == io && e.descriptor.isDiscoverable

/-- The loader for a file, whose name may carry options. -/
def findLoad (r : Registry) (filename : String) (w : World) : Except Error LoaderEntry × World :=
  let (name, _) := Options.splitName filename
  match w.checkFile name with
  | .error e => (.error e, w)
  | .ok _ =>
    let candidates := r.candidates .file
    match World.firstToClaim (.file name) (candidates.filter (·.loader.sniffs)) w with
    | (.error e, w) => (.error e, w)
    | (.ok (some entry), w) => (.ok entry, w)
    | (.ok none, w) =>
      match candidates.find? fun e => !e.loader.sniffs && e.descriptor.matchesFilename name with
      | some entry => (.ok entry, w)
      | none => (.error (.unknownFormat name), w)

/-- The loader for an input; the path of a file is taken for a file name with options. -/
def findLoadInput (r : Registry) (input : Input) (w : World) : Except Error LoaderEntry × World :=
  match input with
  | .file path => r.findLoad path w
  | _ =>
    match World.firstToClaim input (r.candidates input.kind) w with
    | (.error e, w) => (.error e, w)
    | (.ok (some entry), w) => (.ok entry, w)
    | (.ok none, w) =>
      (.error (.unknownFormat (if input.kind = .buffer then "buffer" else "source")), w)

/-- What the named loader can do with a file. -/
def flagsOf (r : Registry) (loader filename : String) (w : World) : Except Error Flags × World :=
  match r.loader loader with
  | .error e => (.error e, w)
  | .ok entry =>
    let (flags, host) := entry.loader.flags (.file (Options.splitName filename).1) w.host
    (.ok flags, { w with host })

/-- Whether the named loader recognises a file. -/
def recognisesFile (r : Registry) (loader filename : String) (w : World) :
    Except Error Bool × World :=
  match r.loader loader with
  | .error e => (.error e, w)
  | .ok entry =>
    let (name, _) := Options.splitName filename
    if entry.loader.sniffs then w.ask entry (.file name)
    else (.ok (entry.descriptor.matchesFilename name), w)

/-- Whether the named loader recognises a buffer or a stream, which is put back to its start
before. -/
def recognises (r : Registry) (loader : String) (input : Input) (w : World) :
    Except Error Bool × World :=
  match r.loader loader with
  | .error e => (.error e, w)
  | .ok entry =>
    match w.rewind input with
    | (.error e, w) => (.error e, w)
    | (.ok _, w) => w.ask entry input

end Registry

end Raster
