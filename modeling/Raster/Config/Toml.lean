/-
# Settings in TOML

The language of settings files as the program is built with it: a group is a table of
its settings, or an array of the values of the first ones, in order. A key that is not
known is refused; a setting that is missing has its stock value.

| values | written as | read from |
| --- | --- | --- |
| truth values | a boolean | a boolean |
| counts | an integer | an integer that is not negative |
| byte counts | a text | an integer, a text |
| one of several names | a text | a text, a table with that key and an empty value |
| categories | a text | a text |
| numbers | floats | floats, integers |
-/
import Raster.Config.Setting
import Raster.Toml.Reader

namespace Raster

namespace Config

/-- Whether a value is a group of some names: a table without other keys, or an array that is no
longer. -/
def isGroup (names : List String) : Toml → Bool
  | .table entries => entries.all fun e => names.contains e.1
  | .array items => items.length ≤ names.length
  | _ => false

/-- The value in a group under a name, or at the place of the name. -/
def member (names : List String) (name : String) : Toml → Option Toml
  | .table entries => Toml.find? name entries
  | .array items => Toml.find? name (names.zip items)
  | _ => none

/-- A truth value. -/
def boolean : Toml → Option Bool
  | .boolean b => some b
  | _ => none

/-- A whole number that is not negative. -/
def natural : Toml → Option Nat
  | .integer n => if 0 ≤ n.toInt then some n.toInt.toNat else none
  | _ => none

/-- A number. -/
def real : Toml → Option Double
  | .float v => some v
  | .integer n => some (.ofFloat n.toFloat)
  | _ => none

/-- A byte count, as a number or a text. -/
def byteSize : Toml → Option ByteSize
  | .integer n => if 0 ≤ n.toInt then some ⟨UInt64.ofNat n.toInt.toNat⟩ else none
  | .text s => (ByteSize.parse s).toOption
  | _ => none

/-- One of several names: a text, or a table with that key and an empty value. -/
def choice {α : Type} (ofName? : String → Option α) : Toml → Option α
  | .text s => ofName? s
  | .table [(s, .array [])] => ofName? s
  | .table [(s, .table [])] => ofName? s
  | _ => none

/-- The categories to keep. -/
def keep : Toml → Option Keep
  | .text s => (Keep.parse s).toOption
  | _ => none

/-- A list of numbers. -/
def reals : Toml → Option (List Double)
  | .array items => items.mapM real
  | _ => none

namespace Setting

/-- What a value says for a setting. -/
def read : (s : Setting) → Toml → Option s.Value
  | discThreshold => byteSize
  | disc | memory | enabled => boolean
  | access => choice Access.ofName?
  | failOn => choice FailOn.ofName?
  | maxEntries => natural
  | keep => Config.keep
  | background => reals
  | maxThreads => fun v => (natural v).map some

/-- What is given for a setting. -/
def given (s : Setting) (v : Toml) : Option Toml :=
  (member (Group.all.map Group.name) s.group.name v).bind (member s.group.settings s.name)

/-- The value of a setting that is given, or else its stock value. -/
def value? (s : Setting) : Option Toml → Option s.Value
  | none => some s.stock
  | some v => s.read v

end Setting

/-- Whether a value has no keys but those of groups and settings. -/
def isKnown (v : Toml) : Bool :=
  isGroup (Group.all.map Group.name) v && Group.all.all fun g =>
    (member (Group.all.map Group.name) g.name v).all (isGroup g.settings)

/-- The settings in a value. -/
def ofToml (v : Toml) : Option Config :=
  if isKnown v then assemble fun s => s.value? (s.given v) else none

/-- A count as a value. -/
def ofNatural (n : Nat) : Option Toml :=
  if n < 0x8000000000000000 then some (.integer (Int64.ofNat n)) else none

/-- Settings as a value. -/
def toToml (c : Config) : Option Toml := do
  let maxEntries ← ofNatural c.cache.maxEntries
  let maxThreads ← c.processing.maxThreads.toList.mapM ofNatural
  return .table [
    ("load", .table [
      ("disc_threshold", .text c.load.discThreshold.text),
      ("disc", .boolean c.load.disc),
      ("access", .text c.load.access.name),
      ("fail_on", .text c.load.failOn.name),
      ("memory", .boolean c.load.memory)]),
    ("cache", .table [("enabled", .boolean c.cache.enabled), ("max_entries", maxEntries)]),
    ("save", .table [
      ("keep", .text c.save.keep.text),
      ("background", .array (c.save.background.map .float))]),
    ("processing", .table (maxThreads.map fun n => ("max_threads", n)))]

end Config

/-- Settings files in TOML. -/
def ConfigLanguage.toml : ConfigLanguage where
  parse := Toml.parse
  read := Config.ofToml
  write := Config.toToml

end Raster
