/-
# The registry

Which handlers there are. Handlers are registered one after the other; one that
could never be used is left out, the others are listed by priority, the highest
first, and in the order of their registration where priorities are equal.

| registration | left out when |
| --- | --- |
| loader | it is described as a saver |
| loader of buffers or streams | it cannot sniff |
| loader of files | it can neither sniff nor match a suffix |
| saver | it is described as a loader, or has no suffix |
-/
import Raster.Handler.Loader
import Raster.Handler.Saver
import Raster.Registry.Descriptor

namespace Raster

/-- A handler to register, with what it says about itself. -/
inductive Registration where
  | loader (descriptor : Descriptor) (loader : Loader)
  | saver (descriptor : Descriptor) (saver : Saver)

namespace Registration

/-- What the handler says about itself. -/
def descriptor : Registration → Descriptor
  | loader d _ => d
  | saver d _ => d

/-- Why a handler could never be used. -/
def problem : Registration → Option String
  | loader d l =>
    if d.direction ≠ .load then some "registered as a loader but described as a saver"
    else if d.io ≠ .file ∧ !l.sniffs then some "buffer and stream loaders must be able to sniff"
    else if d.io = .file ∧ !l.sniffs ∧ d.suffixes.isEmpty then
      some "loader can neither sniff nor match suffixes"
    else none
  | saver d _ =>
    if d.direction ≠ .save then some "registered as a saver but described as a loader"
    else if d.suffixes.isEmpty then some "saver has no suffixes"
    else none

/-- Refuses a handler that could never be used. -/
def check (r : Registration) : Except Error Unit :=
  match r.problem with
  | some reason => .error (.misconfiguredHandler r.descriptor.name reason)
  | none => .ok ()

/-- What is warned about when a handler is registered. -/
def warnings (r : Registration) : List String :=
  match r.problem with
  | some reason => [s!"{r.descriptor.name}: {reason}"]
  | none => []

end Registration

/-- A registered loader. -/
structure LoaderEntry where
  descriptor : Descriptor
  loader : Loader
  /-- Which loader this is, in the order of registration. -/
  number : Nat

/-- The entry of the loader with a number. -/
def LoaderEntry.of? (number : Nat) : Registration → Option LoaderEntry
  | .loader descriptor loader => some { descriptor, loader, number }
  | .saver _ _ => none

/-- A registered saver. -/
structure SaverEntry where
  descriptor : Descriptor
  saver : Saver

/-- The entry of a saver. -/
def SaverEntry.of? : Registration → Option SaverEntry
  | .saver descriptor saver => some { descriptor, saver }
  | .loader _ _ => none

/-- The registered handlers, each list in the order in which it is tried. -/
structure Registry where
  loaders : List LoaderEntry
  savers : List SaverEntry

namespace Registry

/-- The entries of those registrations that can be used. Each is made by `make`, which picks a side
and is told how many handlers of that side come before, the useless ones among them. -/
def usable {α : Type} (make : Nat → Registration → Option α) : Nat → List Registration → List α
  | _, [] => []
  | n, r :: rest =>
    match make n r with
    | none => usable make n rest
    | some e =>
      if r.problem.isSome then usable make (n + 1) rest else e :: usable make (n + 1) rest

/-- The loaders of some registrations that can be used, numbered among all loaders. -/
def usableLoaders (registrations : List Registration) : List LoaderEntry :=
  usable LoaderEntry.of? 0 registrations

/-- The savers of some registrations that can be used. -/
def usableSavers (registrations : List Registration) : List SaverEntry :=
  usable (fun _ => SaverEntry.of?) 0 registrations

/-- Puts entries in the order of their priorities, the highest first; entries of one priority
keep their order. -/
def byPriority {α : Type} (priority : α → Int) (entries : List α) : List α :=
  entries.mergeSort fun a b => priority b ≤ priority a

/-- The registry of some registrations. -/
def ofRegistrations (registrations : List Registration) : Registry where
  loaders := byPriority (·.descriptor.priority) (usableLoaders registrations)
  savers := byPriority (·.descriptor.priority) (usableSavers registrations)

/-- The loader of an operation, blocked or not. -/
def loader (r : Registry) (name : String) : Except Error LoaderEntry :=
  match r.loaders.find? fun e => e.descriptor.name == name with
  | some e => .ok e
  | none => .error (.noSuchOperation name)

/-- The saver of an operation, blocked or not. -/
def saver (r : Registry) (name : String) : Except Error SaverEntry :=
  match r.savers.find? fun e => e.descriptor.name == name with
  | some e => .ok e
  | none => .error (.noSuchOperation name)

/-- What the first handler of an operation says about itself. -/
def descriptor? (r : Registry) (name : String) : Option Descriptor :=
  (r.loaders.map (·.descriptor) ++ r.savers.map (·.descriptor)).find? fun d => d.name == name

/-- The savers of one kind that discovery may pick. -/
def discoverableSavers (r : Registry) (io : IoKind) : List SaverEntry :=
  r.savers.filter fun e => e.descriptor.io == io && e.descriptor.isDiscoverable

/-- The saver for a file, by the suffix of its name. -/
def findSave (r : Registry) (filename : String) : Except Error SaverEntry :=
  let (name, _) := Options.splitName filename
  match (r.discoverableSavers .file).find? fun e => e.descriptor.matchesFilename name with
  | some e => .ok e
  | none => .error (.unknownFormat name)

/-- The saver of buffers or streams for a suffix. -/
def findSaveBySuffix (r : Registry) (io : IoKind) (suffix : String) : Except Error SaverEntry :=
  match (r.discoverableSavers io).find? fun e =>
    e.descriptor.suffixes.contains (normalSuffix suffix) with
  | some e => .ok e
  | none => .error (.unknownFormat suffix)

/-- Every suffix that some saver writes, each once, in the order of the savers. -/
def suffixes (r : Registry) : List String :=
  ((r.savers.filter fun e => !e.descriptor.blocked).flatMap (·.descriptor.suffixes)).foldl
    (fun seen s => if seen.contains s then seen else seen ++ [s]) []

end Registry

end Raster
