/-
# Settings

Settings come from three layers, the later ones winning: stock defaults, an
optional file, and two variables of the environment.

| setting | stock value |
| --- | --- |
| `load.disc_threshold` | `100m` |
| `load.disc`, `load.access`, `load.fail_on`, `load.memory` | `true`, `random`, `none`, `false` |
| `cache.enabled`, `cache.max_entries` | `true`, `100` |
| `save.keep`, `save.background` | `all`, `[0.0]` |
| `processing.max_threads` | not set |

A file names only what it changes. How values are written in a file, and settings as
values, is left to a language (`ConfigLanguage`); the settings of a file are laid over
the stock ones as values, before they are read.
-/
import Raster.Access
import Raster.ByteSize
import Raster.Host.Files
import Raster.Keep
import Raster.Text.Number
import Raster.Text.Utf8
import Raster.Toml.Basic

namespace Raster

/-- Defaults for every load. -/
structure LoadConfig where
  /-- Decoded images larger than this go to a temporary file. -/
  discThreshold : ByteSize := ⟨104857600⟩
  /-- Whether temporary files may be used at all. -/
  disc : Bool := true
  access : Access := .random
  failOn : FailOn := .none
  /-- Whether pixels always go to memory. -/
  memory : Bool := false
  deriving DecidableEq

/-- Settings of the load cache. -/
structure CacheConfig where
  enabled : Bool := true
  maxEntries : Nat := 100
  deriving DecidableEq

/-- Defaults for every save. -/
structure SaveConfig where
  keep : Keep := .all
  /-- The colour under transparent pixels: one value for each band, or one for all. -/
  background : List Double := [.zero]
  deriving DecidableEq

/-- Settings of the worker threads. -/
structure ProcessingConfig where
  maxThreads : Option Nat := none
  deriving DecidableEq

/-- All settings. -/
structure Config where
  load : LoadConfig := {}
  cache : CacheConfig := {}
  save : SaveConfig := {}
  processing : ProcessingConfig := {}
  deriving DecidableEq

/-- Why settings cannot be used. -/
inductive ConfigError where
  | io (fault : IoFault)
  /-- The file is not well formed, or a key or value in it is not known. -/
  | file
  /-- The stock settings cannot be written as a value. -/
  | unwritable
  | validation (reason : String)
  deriving DecidableEq, Repr

/-- The words for an error. -/
def ConfigError.message : ConfigError → String
  | .io fault => s!"IO error: {fault.name}"
  | .file => "TOML parse error"
  | .unwritable => "TOML serialize error"
  | .validation reason => s!"Config validation error: {reason}"

namespace Config

/-- The file that is read where no other is named. -/
def fileName : String := "imgport.toml"

/-- The variable that overrides `load.disc_threshold`. -/
def discThresholdVariable : String := "IMGPORT_DISC_THRESHOLD"

/-- The variable that overrides `processing.max_threads`. -/
def concurrencyVariable : String := "IMGPORT_CONCURRENCY"

/-- Refuses settings that make no sense. -/
def validate (c : Config) : Except ConfigError Unit :=
  if c.processing.maxThreads = some 0 then
    .error (.validation "processing.max_threads must be at least 1")
  else if c.save.background.all Double.isFinite then .ok ()
  else .error (.validation "save.background values must be finite numbers")

/-- Settings overridden from the environment. -/
def applyEnvironment (c : Config) (lookup : String → Option String) :
    Except ConfigError Config := do
  let c ← match lookup discThresholdVariable with
    | none => pure c
    | some v =>
      match ByteSize.parse v with
      | .ok size => pure { c with load := { c.load with discThreshold := size } }
      | .error e => throw (.validation s!"{discThresholdVariable}: {e}")
  let c ← match lookup concurrencyVariable with
    | none => pure c
    | some v =>
      match Number.unsigned (UInt64.size - 1) (Text.trim v) with
      | .ok n => pure { c with processing := { maxThreads := some n } }
      | .error _ => throw (.validation s!"{concurrencyVariable}: \"{v}\" is not a number")
  c.validate
  return c

/-- How many worker threads to use on a machine with some cores. -/
def effectiveThreads (c : ProcessingConfig) (cores : Nat) : Nat :=
  match c.maxThreads with
  | some n => min n cores
  | none => cores

end Config

/-- How settings files are written. -/
structure ConfigLanguage where
  /-- The value in a text. -/
  parse : String → Option Toml
  /-- The settings in a value. -/
  read : Toml → Option Config
  /-- Settings as a value. -/
  write : Config → Option Toml

namespace ConfigLanguage

/-- The stock defaults as a value. -/
def stock (language : ConfigLanguage) : Except ConfigError Toml :=
  match language.write {} with
  | some v => .ok v
  | none => .error .unwritable

/-- The settings of a file laid over others. -/
def resolve (language : ConfigLanguage) (base : Toml) (overlay : Option Toml) :
    Except ConfigError Config := do
  let merged := match overlay with
    | some v => base.merge v
    | none => base
  match language.read merged with
  | none => throw .file
  | some c =>
    c.validate
    return c

/-- The value in the text of a settings file. -/
def readText (language : ConfigLanguage) (s : String) : Except ConfigError Toml :=
  match language.parse s with
  | some v => .ok v
  | none => .error .file

/-- The value in a settings file, if there is one. -/
def overlay (language : ConfigLanguage) (files : Files) (path : String) :
    Except ConfigError (Option Toml) :=
  if files.pathExists path then
    match files.read path with
    | .error fault => .error (.io fault)
    | .ok bytes =>
      match Utf8.decode bytes with
      | .ok s => (language.readText s).map some
      | .error _ => .error (.io .invalidData)
  else .ok none

/-- The settings of a file and the environment over the stock defaults. -/
def ofFiles (language : ConfigLanguage) (files : Files) (path : String)
    (lookup : String → Option String) : Except ConfigError Config := do
  let base ← language.stock
  let overlay ← language.overlay files path
  let c ← language.resolve base overlay
  c.applyEnvironment lookup

end ConfigLanguage

end Raster
