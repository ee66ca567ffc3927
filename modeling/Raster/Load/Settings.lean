/-
# Settings of one load

Options that every load understands are taken out of the option list; the others
go to the loader.

| option | setting |
| --- | --- |
| `access` | how pixels will be read |
| `sequential` | older spelling of `access=sequential` |
| `fail_on` | when the loader gives up |
| `fail` | older spelling of `fail_on=warning` |
| `memory` | always decode to memory |
| `disc` | whether temporary files may be used |
| `revalidate` | do not ask the cache, and replace what it holds |
-/
import Raster.Capability
import Raster.Config
import Raster.Image.Store
import Raster.Options

namespace Raster

/-- The settings of one load. -/
structure LoadSettings where
  access : Access := .random
  failOn : FailOn := .none
  memory : Bool := false
  disc : Bool := true
  /-- Images above this many bytes go to a temporary file. -/
  discThreshold : UInt64 := 104857600
  revalidate : Bool := false
  deriving DecidableEq

namespace LoadSettings

/-- The settings of a load without options. -/
def ofConfig (config : LoadConfig) : LoadSettings where
  access := config.access
  failOn := config.failOn
  memory := config.memory
  disc := config.disc
  discThreshold := config.discThreshold.bytes

/-- Takes the settings out of an option list; what is left belongs to the loader. -/
def take (options : Options) (config : LoadConfig) :
    Except Error (LoadSettings × Options) := do
  let s := ofConfig config
  let (access, options) ← options.takeParsed "access" Access.parse
  let (sequential, options) ← options.takeBool "sequential"
  let (failOn, options) ← options.takeParsed "fail_on" FailOn.parse
  let (fail, options) ← options.takeBool "fail"
  let (memory, options) ← options.takeBool "memory"
  let (disc, options) ← options.takeBool "disc"
  let (revalidate, options) ← options.takeBool "revalidate"
  return ({ s with
    access := if sequential = some true then .sequential else access.getD s.access
    failOn := if fail = some true then .warning else failOn.getD s.failOn
    memory := memory.getD s.memory
    disc := disc.getD s.disc
    revalidate := revalidate.getD s.revalidate }, options)

/-- The store for the pixels of an image of `size` bytes. -/
def store (s : LoadSettings) (flags : Flags) (size : UInt64) : StoreKind :=
  if s.memory then .memory
  else if flags.isPartial then .direct
  else if flags.isSequential ∧ s.access ≠ .random then .direct
  else if s.disc ∧ s.discThreshold < size then .disc
  else .memory

end LoadSettings

end Raster
