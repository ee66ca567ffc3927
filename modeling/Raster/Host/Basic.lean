/-
# The host

What the world outside shows to a load or a save: the files, the open streams
and where each one is being read, the warnings given so far, and which devices
are out of order.

A stream reads either bytes of its own or an open file, whose content it sees as
it is at the moment of reading. Every operation seeks first, and fails on a stream
that cannot be sought.

| operation on a stream | position before reading | after |
| --- | --- | --- |
| `rewind` | | the start |
| `sniff` | the start | the start |
| `readAll` | the start | the end |
-/
import Raster.Host.Files

namespace Raster

/-- What a stream reads. -/
inductive StreamContent where
  | bytes (content : Bytes)
  | node (node : Node)
  /-- Something that cannot be sought, such as a pipe. -/
  | stuck (fault : IoFault)
  deriving DecidableEq

/-- An open stream. -/
structure Stream where
  content : StreamContent
  position : Nat := 0
  deriving DecidableEq

/-- The world outside. -/
structure Host where
  files : Files := {}
  streams : List Stream := []
  /-- Warnings, the latest first. -/
  warnings : List String := []
  /-- Numbers of devices that are out of order. -/
  broken : List Nat := []
  deriving DecidableEq

namespace Host

/-- The host after a warning. -/
def warn (host : Host) (message : String) : Host :=
  { host with warnings := message :: host.warnings }

/-- The host after some warnings, in order. -/
def warnAll (host : Host) (messages : List String) : Host := messages.foldl warn host

/-- The host with no warnings, and the warnings in the order they were given. -/
def takeWarnings (host : Host) : List String × Host :=
  (host.warnings.reverse, { host with warnings := [] })

/-- The bytes of a stream. -/
def streamBytes (host : Host) (id : Nat) : Except IoFault Bytes :=
  match host.streams[id]? with
  | none => .error .notFound
  | some s =>
    match s.content with
    | .bytes content => .ok content
    | .node node => host.files.content node
    | .stuck fault => .error fault

/-- The host with a stream at another position. -/
def seek (host : Host) (id position : Nat) : Host :=
  { host with streams := host.streams.modify id fun s => { s with position } }

/-- The host with one more stream, and its number. -/
def openStream (host : Host) (content : StreamContent) : Nat × Host :=
  (host.streams.length, { host with streams := host.streams ++ [{ content }] })

/-- Opens a stream on a file. -/
def openFile (host : Host) (path : String) : Except Error (Nat × Host) :=
  match host.files.node path with
  | .ok node => .ok (host.openStream (.node node))
  | .error fault => .error (.io fault)

/-- What every seek of a stream runs into, if it cannot be sought. -/
def seekFault? (host : Host) (id : Nat) : Option IoFault :=
  match host.streams[id]?.map Stream.content with
  | some (.stuck fault) => some fault
  | _ => none

/-- Where a stream is read next. -/
def position (host : Host) (id : Nat) : Except Error Nat :=
  match host.seekFault? id with
  | some fault => .error (.io fault)
  | none => .ok ((host.streams[id]?.map Stream.position).getD 0)

/-- Puts a stream back to its start. -/
def rewind (host : Host) (id : Nat) : Except Error Unit × Host :=
  match host.seekFault? id with
  | some fault => (.error (.io fault), host)
  | none => (.ok (), host.seek id 0)

/-- Every byte of a stream from its start. -/
def readStream (host : Host) (id : Nat) : Except Error Bytes × Host :=
  match host.rewind id with
  | (.error e, host) => (.error e, host)
  | (.ok _, host) =>
    match host.streamBytes id with
    | .ok bytes => (.ok bytes, host.seek id bytes.length)
    | .error fault => (.error (.io fault), host)

/-- The first `n` bytes of what can be read; where none are wanted, nothing is read. -/
def leading (n : Nat) (content : Except IoFault Bytes) : Except Error Bytes :=
  if n = 0 then .ok []
  else
    match content with
    | .ok bytes => .ok (bytes.take n)
    | .error fault => .error (.io fault)

/-- Up to `n` bytes from the start of a stream, which is left at its start. -/
def sniffStream (host : Host) (id n : Nat) : Except Error Bytes × Host :=
  match host.rewind id with
  | (.error e, host) => (.error e, host)
  | (.ok _, host) => (leading n (host.streamBytes id), host)

/-- Whether a device is out of order. -/
def isBroken (host : Host) (device : Nat) : Bool := host.broken.contains device

/-- The host with a device put out of order, or back into it. -/
def setBroken (host : Host) (device : Nat) (value : Bool) : Host :=
  let others := host.broken.filter (· != device)
  { host with broken := if value then device :: others else others }

end Host

/-- The three ways to read an image or to write one. -/
inductive IoKind where
  | file
  | buffer
  | stream
  deriving DecidableEq, Repr

namespace IoKind

/-- Every kind. -/
def all : List IoKind := [file, buffer, stream]

/-- The name of a kind. -/
def name : IoKind → String
  | file => "file"
  | buffer => "buffer"
  | stream => "stream"

/-- The kind of a name. -/
def ofName? (s : String) : Option IoKind := all.find? fun k => k.name == s

end IoKind

/-- What a load reads. -/
inductive Input where
  | file (path : String)
  | buffer (bytes : Bytes)
  | stream (id : Nat)
  deriving DecidableEq

namespace Input

/-- The kind of an input. -/
def kind : Input → IoKind
  | file _ => .file
  | buffer _ => .buffer
  | stream _ => .stream

/-- The path of a file. -/
def path? : Input → Option String
  | file path => some path
  | _ => none

/-- The input in a few words. -/
def describe : Input → String
  | file path => path
  | buffer bytes => s!"memory buffer ({bytes.length} bytes)"
  | stream _ => "stream"

/-- Up to `n` leading bytes; a stream is left at its start. -/
def sniff (input : Input) (n : Nat) (host : Host) : Except Error Bytes × Host :=
  match input with
  | file path =>
    match host.files.node path with
    | .ok node => (Host.leading n (host.files.content node), host)
    | .error fault => (.error (.io fault), host)
  | buffer bytes => (.ok (bytes.take n), host)
  | stream id => host.sniffStream id n

/-- Every byte of an input; a stream is left at its end. -/
def readAll (input : Input) (host : Host) : Except Error Bytes × Host :=
  match input with
  | file path => ((host.files.read path).mapError .io, host)
  | buffer bytes => (.ok bytes, host)
  | stream id => host.readStream id

end Input

end Raster
