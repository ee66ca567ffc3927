/-
# TOML values

The values that a settings file holds, and how one file is laid over another:
tables are merged key by key, anything else of the overlay replaces what was
there.
-/
import Raster.Double

namespace Raster

/-- How far a time is ahead of universal time. -/
inductive TimeOffset where
  | zulu
  | minutes (n : Int16)
  deriving DecidableEq, Repr

/-- A day of the calendar. -/
structure CalendarDate where
  year : UInt16
  month : UInt8
  day : UInt8
  deriving DecidableEq, Repr

/-- A time of the day. -/
structure ClockTime where
  hour : UInt8
  minute : UInt8
  second : UInt8
  nanosecond : UInt32
  deriving DecidableEq, Repr

/-- A date, a time or both, with an offset or without. -/
structure Datetime where
  date : Option CalendarDate
  time : Option ClockTime
  offset : Option TimeOffset
  deriving DecidableEq, Repr

/-- A value of a settings file. -/
inductive Toml where
  | text (v : String)
  | integer (v : Int64)
  | float (v : Double)
  | boolean (v : Bool)
  | datetime (v : Datetime)
  | array (items : List Toml)
  | table (entries : List (String × Toml))
  deriving Inhabited

namespace Toml

/-- The value under a key in the entries of a table; the first one counts. -/
def find? (key : String) : List (String × Toml) → Option Toml
  | [] => none
  | (k, v) :: rest => if key = k then some v else find? key rest

/-- The value under a key; only tables have keys. -/
def get? (key : String) : Toml → Option Toml
  | table entries => find? key entries
  | _ => none

/-- The value at the end of a path of keys. -/
def at? : List String → Toml → Option Toml
  | [], v => some v
  | key :: path, v => (v.get? key).bind (at? path)

/-- Whether a value is a table. -/
def isTable : Toml → Bool
  | table _ => true
  | _ => false

mutual

/-- Lays a value over another. -/
def merge (base : Toml) : Toml → Toml
  | table overlay =>
    match base with
    | table entries =>
      table (mergeEntries entries overlay
        ++ entries.filter fun e => !(overlay.any fun o => o.1 == e.1))
    | _ => table overlay
  | other => other

/-- The entries of an overlay, each laid over what the base has under its key. -/
def mergeEntries (base : List (String × Toml)) : List (String × Toml) → List (String × Toml)
  | [] => []
  | (key, v) :: rest =>
    (key, match find? key base with
      | some old => merge old v
      | none => v) :: mergeEntries base rest

end

end Toml

end Raster
