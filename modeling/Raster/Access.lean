/-
# How pixels will be read, and when to give up

Two choices that every load takes. Both are named in options without regard to
ASCII case; in an option an underscore in the name of an access pattern counts as
a dash.
-/
import Raster.Text

namespace Raster

/-- How pixels will be read after a load. -/
inductive Access where
  /-- Any region in any order. -/
  | random
  /-- From top to bottom, with recent rows kept. -/
  | sequential
  /-- From top to bottom, with no rows kept. -/
  | sequentialUnbuffered
  deriving DecidableEq, Repr

namespace Access

/-- Every pattern. -/
def all : List Access := [random, sequential, sequentialUnbuffered]

/-- The name of a pattern in options and settings. -/
def name : Access → String
  | random => "random"
  | sequential => "sequential"
  | sequentialUnbuffered => "sequential-unbuffered"

/-- The name of a pattern in cache keys. -/
def label : Access → String
  | random => "Random"
  | sequential => "Sequential"
  | sequentialUnbuffered => "SequentialUnbuffered"

/-- The pattern with exactly this name. -/
def ofName? (s : String) : Option Access := all.find? fun a => a.name == s

/-- Reads a pattern from an option. -/
def parse (s : String) : Except String Access :=
  let word := String.ofList ((s.toList.map Char.toLower).map fun c => if c = '_' then '-' else c)
  match ofName? word with
  | some a => .ok a
  | none => .error s!"unknown access pattern \"{word}\""

end Access

/-- The level of damage at which a loader gives up. -/
inductive FailOn where
  | none
  | truncated
  | error
  | warning
  deriving DecidableEq, Repr

namespace FailOn

/-- Every level, the least strict first. -/
def all : List FailOn := [none, truncated, error, warning]

/-- The name of a level in options and settings. -/
def name : FailOn → String
  | none => "none"
  | truncated => "truncated"
  | error => "error"
  | warning => "warning"

/-- The name of a level in cache keys. -/
def label : FailOn → String
  | none => "None"
  | truncated => "Truncated"
  | error => "Error"
  | warning => "Warning"

/-- The level with exactly this name. -/
def ofName? (s : String) : Option FailOn := all.find? fun f => f.name == s

/-- Reads a level from an option. -/
def parse (s : String) : Except String FailOn :=
  let word := Text.lower s
  match ofName? word with
  | some f => .ok f
  | Option.none => .error s!"unknown fail_on level \"{word}\""

end FailOn

end Raster
