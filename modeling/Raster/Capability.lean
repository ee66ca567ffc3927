/-
# What a handler can do

| set | members |
| --- | --- |
| `Saveable` | the colour models that a saver writes, and whether it writes alpha |
| `CodingSet` | the codings that a saver takes as they are |
| `FormatTable` | for every band format, the one that a saver wants instead |
| `Flags` | what a loader can do with one particular input |
-/
import Raster.Image.Format

namespace Raster

/-- The colour models that a saver can write. -/
structure Saveable where
  mono : Bool := false
  rgb : Bool := false
  cmyk : Bool := false
  alpha : Bool := false
  /-- Anything at all: no colour, alpha or band count is coerced. -/
  any : Bool := false
  deriving DecidableEq, Repr

namespace Saveable

/-- The models of either set. -/
def union (a b : Saveable) : Saveable :=
  ⟨a.mono || b.mono, a.rgb || b.rgb, a.cmyk || b.cmyk, a.alpha || b.alpha, a.any || b.any⟩

/-- Whether every model of `b` is one of `a`. -/
def contains (a b : Saveable) : Bool :=
  (a.mono || !b.mono) && (a.rgb || !b.rgb) && (a.cmyk || !b.cmyk) && (a.alpha || !b.alpha)
    && (a.any || !b.any)

/-- The models with their names. -/
def named : List (Saveable × String) :=
  [({ mono := true }, "mono"), ({ rgb := true }, "rgb"), ({ cmyk := true }, "cmyk"),
    ({ alpha := true }, "alpha"), ({ any := true }, "any")]

/-- The names of the models, joined by bars. -/
def text (s : Saveable) : String :=
  Text.join "|" ((named.filter fun m => s.contains m.1).map (·.2))

/-- The model of a name. -/
def ofName? (name : String) : Option Saveable := (named.find? fun m => m.2 == name).map (·.1)

end Saveable

/-- The codings that a saver accepts. -/
structure CodingSet where
  plain : Bool := false
  labq : Bool := false
  rad : Bool := false
  deriving DecidableEq, Repr

namespace CodingSet

/-- Plain samples only. -/
def plainOnly : CodingSet := { plain := true }

/-- Every coding. -/
def every : CodingSet := ⟨true, true, true⟩

/-- Whether a coding is accepted. -/
def accepts (s : CodingSet) : Coding → Bool
  | .none => s.plain
  | .labq => s.labq
  | .rad => s.rad

/-- The set that also accepts a coding. -/
def insert (s : CodingSet) : Coding → CodingSet
  | .none => { s with plain := true }
  | .labq => { s with labq := true }
  | .rad => { s with rad := true }

/-- The names of the codings, joined by bars. -/
def text (s : CodingSet) : String := Text.join "|" ((Coding.all.filter s.accepts).map Coding.name)

end CodingSet

/-- For every band format, the one that a saver wants instead. -/
abbrev FormatTable := BandFormat → BandFormat

namespace FormatTable

/-- No promotion. -/
def identity : FormatTable := fun f => f

/-- Everything becomes eight unsigned bits. -/
def allUchar : FormatTable := fun _ => .uchar

/-- The table with these formats in promotion order; a place that is missing stays as it is. -/
def ofList (formats : List BandFormat) : FormatTable := fun f => formats[f.index]?.getD f

/-- The formats in promotion order. -/
def toList (table : FormatTable) : List BandFormat := BandFormat.all.map table

end FormatTable

/-- What a loader can do with an input. -/
structure Flags where
  /-- Any region can be read without decoding the rest. -/
  isPartial : Bool := false
  /-- Pixels come only from top to bottom. -/
  isSequential : Bool := false
  /-- Samples are stored most significant byte first. -/
  isBigEndian : Bool := false
  deriving DecidableEq, Repr

/-- The names of the flags, or `none`. -/
def Flags.text (f : Flags) : String :=
  let names := (if f.isPartial then ["partial"] else [])
    ++ (if f.isSequential then ["sequential"] else [])
    ++ (if f.isBigEndian then ["bigendian"] else [])
  if names.isEmpty then "none" else Text.join ", " names

end Raster
