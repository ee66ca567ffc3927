/-
# Settings one by one

Every setting belongs to a group, and is found under the name of the group and its
own name.

| group | settings |
| --- | --- |
| `load` | `disc_threshold`, `disc`, `access`, `fail_on`, `memory` |
| `cache` | `enabled`, `max_entries` |
| `save` | `keep`, `background` |
| `processing` | `max_threads` |
-/
import Raster.Config

namespace Raster

namespace Config

/-- The groups of settings. -/
inductive Group where
  | load
  | cache
  | save
  | processing
  deriving DecidableEq

namespace Group

/-- Every group, in order. -/
def all : List Group := [load, cache, save, processing]

def name : Group → String
  | load => "load"
  | cache => "cache"
  | save => "save"
  | processing => "processing"

/-- The names of the settings of a group, in order. -/
def settings : Group → List String
  | load => ["disc_threshold", "disc", "access", "fail_on", "memory"]
  | cache => ["enabled", "max_entries"]
  | save => ["keep", "background"]
  | processing => ["max_threads"]

end Group

/-- The settings. -/
inductive Setting where
  | discThreshold
  | disc
  | access
  | failOn
  | memory
  | enabled
  | maxEntries
  | keep
  | background
  | maxThreads

namespace Setting

def group : Setting → Group
  | discThreshold | disc | access | failOn | memory => .load
  | enabled | maxEntries => .cache
  | keep | background => .save
  | maxThreads => .processing

def name : Setting → String
  | discThreshold => "disc_threshold"
  | disc => "disc"
  | access => "access"
  | failOn => "fail_on"
  | memory => "memory"
  | enabled => "enabled"
  | maxEntries => "max_entries"
  | keep => "keep"
  | background => "background"
  | maxThreads => "max_threads"

/-- The keys that lead to a setting. -/
def path (s : Setting) : List String := [s.group.name, s.name]

/-- The values of a setting. -/
def Value : Setting → Type
  | discThreshold => ByteSize
  | disc | memory | enabled => Bool
  | access => Access
  | failOn => FailOn
  | maxEntries => Nat
  | keep => Keep
  | background => List Double
  | maxThreads => Option Nat

/-- The value of a setting. -/
def of (c : Config) : (s : Setting) → s.Value
  | discThreshold => c.load.discThreshold
  | disc => c.load.disc
  | access => c.load.access
  | failOn => c.load.failOn
  | memory => c.load.memory
  | enabled => c.cache.enabled
  | maxEntries => c.cache.maxEntries
  | keep => c.save.keep
  | background => c.save.background
  | maxThreads => c.processing.maxThreads

/-- The stock value of a setting. -/
def stock (s : Setting) : s.Value := s.of {}

end Setting

/-- All settings together, if each one has a value. -/
def assemble (value? : (s : Setting) → Option s.Value) : Option Config := do
  return {
    load := {
      discThreshold := ← value? .discThreshold
      disc := ← value? .disc
      access := ← value? .access
      failOn := ← value? .failOn
      memory := ← value? .memory }
    cache := {
      enabled := ← value? .enabled
      maxEntries := ← value? .maxEntries }
    save := {
      keep := ← value? .keep
      background := ← value? .background }
    processing := { maxThreads := ← value? .maxThreads } }

end Config

end Raster
