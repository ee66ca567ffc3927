/-
# Sessions

A session ties the registry, the settings and the colour engine together. Loads
are found by content or suffix and shared through the cache; saves are found by
suffix and never shared. Handlers can also be called by the name of their
operation.

| call | handler found by | options from |
| --- | --- | --- |
| `loadFile` | content, then suffix | the caller, then the file name |
| `loadBuffer`, `loadStream` | content | the caller |
| `loadWith` | name | the caller |
| `saveFile` | suffix of the name | the file name |
| `saveBuffer`, `saveStream` | suffix | the suffix |
| `saveWith` | name | the caller |
-/
import Raster.Discovery
import Raster.Save.Basic

namespace Raster

/-- What stays the same during a session. -/
structure Session where
  registry : Registry
  config : Config := {}
  colour : ColourEngine LoadId := Colour.basic

namespace Session

/-- How many loads the cache keeps. -/
def cacheCapacity (config : Config) : Nat :=
  if config.cache.enabled then config.cache.maxEntries else 0

/-- The world in which a session starts. -/
def start (s : Session) (host : Host) : World where
  host := host
  cache := { capacity := cacheCapacity s.config }

/-- The load that the cache has for a key, where it is asked at all. -/
def shared (settings : LoadSettings) (key : Option String) (w : World) : Option LoadId × World :=
  match key with
  | some key => if settings.revalidate then (none, w) else w.lookUp key
  | none => (none, w)

/-- Opens a load and keeps it for later ones. -/
def openShared (entry : LoaderEntry) (input : Input) (options : Options) (settings : LoadSettings)
    (key : Option String) (w : World) : Except Error LoadId × World :=
  match w.openLoad entry input options settings with
  | (.error e, w) => (.error e, w)
  | (.ok id, w) =>
    match key with
    | some key => (.ok id, w.remember key id)
    | none => (.ok id, w)

/-- Loads an input with a given loader, or answers with the load that the cache has. -/
def load (s : Session) (entry : LoaderEntry) (input : Input) (options : Options) (w : World) :
    Except Error (Image LoadId) × World :=
  match LoadSettings.take options s.config.load with
  | .error e => (.error e, w)
  | .ok (settings, options) =>
    let key := loadKey entry.descriptor.name input options settings
    match shared settings key w with
    | (some id, w) => w.publish id
    | (none, w) =>
      match openShared entry input options settings key w with
      | (.error e, w) => (.error e, w)
      | (.ok id, w) => w.publish id

/-- Loads a file; options in its name win over the others. -/
def loadFile (s : Session) (filename : String) (options : Options) (w : World) :
    Except Error (Image LoadId) × World :=
  match s.registry.findLoad filename w with
  | (.error e, w) => (.error e, w)
  | (.ok entry, w) =>
    match Options.ofName filename with
    | .error e => (.error e, w)
    | .ok named => s.load entry (.file (Options.splitName filename).1) (options.extend named) w

/-- Loads an image held in memory. -/
def loadBuffer (s : Session) (bytes : Bytes) (options : Options) (w : World) :
    Except Error (Image LoadId) × World :=
  match s.registry.findLoadInput (.buffer bytes) w with
  | (.error e, w) => (.error e, w)
  | (.ok entry, w) => s.load entry (.buffer bytes) options w

/-- Loads from a stream. -/
def loadStream (s : Session) (id : Nat) (options : Options) (w : World) :
    Except Error (Image LoadId) × World :=
  match s.registry.findLoadInput (.stream id) w with
  | (.error e, w) => (.error e, w)
  | (.ok entry, w) =>
    match w.rewind (.stream id) with
    | (.error e, w) => (.error e, w)
    | (.ok _, w) => s.load entry (.stream id) options w

/-- Refuses the path of a file that cannot be loaded. -/
def checkPath (input : Input) (w : World) : Except Error Unit :=
  match input with
  | .file path => w.checkFile path
  | _ => .ok ()

/-- Loads with the loader of an operation. -/
def loadWith (s : Session) (operation : String) (input : Input) (options : Options) (w : World) :
    Except Error (Image LoadId) × World :=
  match s.registry.loader operation with
  | .error e => (.error e, w)
  | .ok entry =>
    if entry.descriptor.io ≠ input.kind then
      (.error (.decode operation s!"cannot read {input.describe}"), w)
    else
      match checkPath input w with
      | .error e => (.error e, w)
      | .ok _ =>
        match w.rewind input with
        | (.error e, w) => (.error e, w)
        | (.ok _, w) => s.load entry input options w

/-- Saves with a given saver. -/
def save (s : Session) (entry : SaverEntry) (image : Image LoadId) (target : Target)
    (options : Options) (w : World) : Except Error Receipt × Target × World :=
  Save.run entry image target options s.config.save s.colour w

/-- Saves with a saver and options that may not be there. -/
def saveFound (s : Session) (entry : Except Error SaverEntry) (image : Image LoadId)
    (target : Target) (options : Except Error Options) (w : World) :
    Except Error Receipt × Target × World :=
  match entry with
  | .error e => (.error e, target, w)
  | .ok entry =>
    match options with
    | .error e => (.error e, target, w)
    | .ok options => s.save entry image target options w

/-- Saves to a file. -/
def saveFile (s : Session) (image : Image LoadId) (filename : String) (w : World) :
    Except Error Receipt × Target × World :=
  s.saveFound (s.registry.findSave filename) image (.file (Options.splitName filename).1)
    (Options.ofName filename) w

/-- Saves to memory. -/
def saveBuffer (s : Session) (image : Image LoadId) (suffix : String) (w : World) :
    Except Error Receipt × Target × World :=
  s.saveFound (s.registry.findSaveBySuffix .buffer suffix) image (.buffer [])
    (Options.ofName suffix) w

/-- Saves to a stream. -/
def saveStream (s : Session) (image : Image LoadId) (suffix : String) (w : World) :
    Except Error Receipt × Target × World :=
  s.saveFound (s.registry.findSaveBySuffix .stream suffix) image (.stream [])
    (Options.ofName suffix) w

/-- Saves with the saver of an operation. -/
def saveWith (s : Session) (operation : String) (image : Image LoadId) (target : Target)
    (options : Options) (w : World) : Except Error Receipt × Target × World :=
  s.saveFound (s.registry.saver operation) image target (.ok options) w

end Session

end Raster
