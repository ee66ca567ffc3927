/-
# The world of a session

Everything that a session changes: the host, the loads opened so far with their
states, the cache, and a record of what loaders were asked to do. Loads are
numbered in the order in which they were opened and are never forgotten, since an
image may still be waiting for their pixels.
-/
import Raster.Load.Key
import Raster.Load.Operation

namespace Raster

/-- Something that a loader was asked to do. -/
inductive Call where
  /-- The loader looked whether an input is of its format. -/
  | isA (loader : Nat)
  /-- The loader read a header. -/
  | header (loader : Nat)
  /-- The loader of a load decoded its pixels. -/
  | decode (id : LoadId)
  deriving DecidableEq, Repr

/-- Everything that a session changes. -/
structure World where
  host : Host := {}
  operations : List Operation := []
  cache : LoadCache
  /-- What loaders were asked to do, in order. -/
  calls : List Call := []
  /-- How many pixel sources have been made. -/
  sources : Nat := 0

namespace World

/-- The files. -/
def files (w : World) : Files := w.host.files

/-- The world after a call. -/
def record (w : World) (call : Call) : World := { w with calls := w.calls ++ [call] }

/-- The world after a warning. -/
def warnAll (w : World) (messages : List String) : World :=
  { w with host := w.host.warnAll messages }

/-- A name for a new pixel source. -/
def newSource (w : World) : Identity × World :=
  ({ origin := w.sources }, { w with sources := w.sources + 1 })

/-- The load with a number. -/
def operation? (w : World) (id : LoadId) : Option Operation := w.operations[id]?

/-- Whether a load failed. -/
def hasFailed (w : World) (id : LoadId) : Bool := ((w.operation? id).map Operation.invalid).getD true

/-- The world with another state of a load. -/
def setOperation (w : World) (id : LoadId) (op : Operation) : World :=
  { w with operations := w.operations.set id op }

/-- The world after pixels of a load turned out unreadable. -/
def invalidate (w : World) (id : LoadId) : World :=
  { w with operations := w.operations.modify id fun op => { op with invalid := true } }

/-- Asks a loader whether an input is of its format. -/
def ask (w : World) (entry : LoaderEntry) (input : Input) : Except Error Bool × World :=
  let (answer, host) := entry.loader.isA input w.host
  (answer, { w.record (.isA entry.number) with host })

/-- Opens a load: reads the header and answers the number of the load. -/
def openLoad (w : World) (entry : LoaderEntry) (input : Input) (options : Options)
    (settings : LoadSettings) : Except Error LoadId × World :=
  let name := entry.descriptor.name
  let (claimed, host) := entry.loader.flags input w.host
  let (flags, warnings) := settleFlags name claimed
  let w := { w.record (.header entry.number) with host := host.warnAll warnings }
  let outcome := entry.loader.header (loadContext entry input options settings) w.host
  let w := { w with host := outcome.host }
  match outcome.result with
  | .error e => (.error e, w)
  | .ok info =>
    match Operation.startPhase name entry.loader info with
    | .error e => (.error e, w)
    | .ok phase =>
      let op : Operation := {
        entry, input, options, settings, flags, phase
        header := info.header
        metadata := Operation.published name settings.access info.metadata
        invalid := outcome.unshared }
      (.ok w.operations.length, { w with operations := w.operations ++ [op] })

/-- The decoded image of a load, decoded now if nobody has asked before. -/
def pixels (w : World) (id : LoadId) : Except Error (Image Empty) × World :=
  match w.operation? id with
  | none => (.error (.loadFailed ""), w)
  | some op =>
    match op.phase with
    | .decoded image => (.ok image, w)
    | .failed => (.error (.loadFailed op.name), w)
    | .headerRead =>
      let outcome := op.entry.loader.decode op.context w.host
      let w := { w.record (.decode id) with host := outcome.host }
      match op.settle w.files outcome.result with
      | .ok image =>
        (.ok image, w.setOperation id
          { op with phase := .decoded image, invalid := op.invalid || outcome.unshared })
      | .error e => (.error e, w.setOperation id { op with phase := .failed, invalid := true })

/-- Answers a rectangle of a load's pixels. -/
def answer (id : LoadId) (r : Rect) (w : World) : Except Error Bytes × World :=
  match w.pixels id with
  | (.error e, w) => (.error e, w)
  | (.ok image, w) =>
    match image.fetchFrom w.files r with
    | .ok bytes => (.ok bytes, w)
    | .error e => (.error e, w.invalidate id)

/-- Fetches a rectangle of an image. -/
def fetch (w : World) (image : Image LoadId) (r : Rect) : Except Error Bytes × World :=
  image.fetch files answer r w

/-- Fetches every pixel of an image. -/
def fetchAll (w : World) (image : Image LoadId) : Except Error Bytes × World :=
  image.fetchAll files answer w

/-- The image that a load publishes, with a source of its own. -/
def publish (w : World) (id : LoadId) : Except Error (Image LoadId) × World :=
  match w.operation? id with
  | none => (.error (.loadFailed ""), w)
  | some op =>
    let (identity, w) := w.newSource
    (.ok (op.image id identity), w)

/-- Looks for a load in the cache. -/
def lookUp (w : World) (key : String) : Option LoadId × World :=
  let (found, cache) := w.cache.lookUp w.hasFailed key
  (found, { w with cache })

/-- Keeps a load in the cache, unless it cannot be shared. -/
def remember (w : World) (key : String) (id : LoadId) : World :=
  match w.operation? id with
  | none => w
  | some op => if op.isUnshareable || op.invalid then w else { w with cache := w.cache.insert key id }

end World

end Raster
