/-
# The cache of loads

Loads by key, at most `capacity` of them, the oldest dropped first. The table says
which load a key stands for, the queue in which order the keys were put in.

| operation | effect |
| --- | --- |
| `lookUp` | the load of a key; a load that failed since is dropped instead |
| `insert` | puts a load at the end, after dropping the key's old load and the oldest ones |
| `remove`, `clear` | drop one load, or all |

Every look-up counts as a hit or a miss.
-/
import Raster.Fields
import Raster.Image.Basic

namespace Raster

/-- The number of a load. -/
abbrev LoadId := Nat

/-- How often the cache could help; counts are 32-bit words, and a full one starts again. -/
structure CacheStats where
  hits : UInt32 := 0
  misses : UInt32 := 0
  /-- Loads dropped because they had failed. -/
  invalidated : UInt32 := 0
  deriving DecidableEq, Repr

namespace CacheStats

/-- How many look-ups there were, where a word can count them. -/
def total (s : CacheStats) : Except Error UInt32 := checkedSum s.hits s.misses

/-- The counts in a few words; what is zero is left out. -/
def text (s : CacheStats) : Except Error String := do
  if 0 < s.invalidated then
    return s!"{s.hits} cached, {s.misses} loaded, {s.invalidated} invalidated ({← s.total} total)"
  else if 0 < s.hits then
    return s!"{s.hits} cached, {s.misses} loaded ({← s.total} total)"
  else return s!"{s.misses} loaded"

/-- One more hit. -/
def hit (s : CacheStats) : CacheStats := { s with hits := s.hits + 1 }

/-- One more miss. -/
def miss (s : CacheStats) : CacheStats := { s with misses := s.misses + 1 }

/-- One more miss, of a load that was there but had failed. -/
def dropped (s : CacheStats) : CacheStats :=
  { s with misses := s.misses + 1, invalidated := s.invalidated + 1 }

end CacheStats

/-- Loads by key. -/
structure LoadCache where
  capacity : Nat
  table : Fields LoadId := {}
  /-- The keys, the oldest first. -/
  queue : List String := []
  stats : CacheStats := {}
  deriving DecidableEq

namespace LoadCache

/-- How many loads are kept. -/
def size (c : LoadCache) : Nat := c.table.size

/-- Whether no load is kept. -/
def isEmpty (c : LoadCache) : Bool := c.table.isEmpty

/-- The cache without a key. -/
def forget (c : LoadCache) (key : String) : LoadCache :=
  { c with table := c.table.erase key, queue := c.queue.filter (· != key) }

/-- The load of a key, if it has not failed. -/
def lookUp (c : LoadCache) (hasFailed : LoadId → Bool) (key : String) :
    Option LoadId × LoadCache :=
  match c.table.get? key with
  | some id =>
    if hasFailed id then (none, { c.forget key with stats := c.stats.dropped })
    else (some id, { c with stats := c.stats.hit })
  | none => (none, { c with stats := c.stats.miss })

/-- Drops the oldest keys of a queue until there is room for one more load. -/
def evict (capacity : Nat) : (queue : List String) → (table : Fields LoadId) →
    List String × Fields LoadId
  | [], table => ([], table)
  | oldest :: rest, table =>
    if capacity ≤ table.size then evict capacity rest (table.erase oldest)
    else (oldest :: rest, table)

/-- Keeps a load under a key; where there is room for none, nothing changes. -/
def insert (c : LoadCache) (key : String) (id : LoadId) : LoadCache :=
  if c.capacity = 0 then c
  else
    let c := c.forget key
    let (queue, table) := evict c.capacity c.queue c.table
    { c with table := table.insert key id, queue := queue ++ [key] }

/-- Drops a key, and says which load it stood for. -/
def remove (c : LoadCache) (key : String) : Option LoadId × LoadCache :=
  (c.table.get? key, c.forget key)

/-- Drops every load; the counts stay. -/
def clear (c : LoadCache) : LoadCache := { c with table := {}, queue := [] }

end LoadCache

end Raster
