/-
# The cache as one list

The cache keeps a table of loads and a queue of their keys. Whoever uses it sees
one list of keys and loads, the oldest first (`Shelf`):

| request | in the list |
| --- | --- |
| `insert`, of a load that may be shared | the key's old pair goes, then the oldest ones until there is room; the new pair comes last |
| any other `insert` | nothing |
| `lookUp` | answers the key's load; a load that has failed by then goes instead |
| `remove` | answers the key's load, which goes |
| `clear` | everything goes |

In between, a session opens loads and asks for their pixels, and some of them fail.
`LoadCache.Mirrors` ties the two: the queue holds the keys of the list in order,
the table its pairs in any order. Every request keeps it (`mirrors_serve`), and so
does a run of them (`serveAll_shelveAll`).
-/
import Raster.Proofs.Load.LazyDecode

namespace Raster

/-! ### Tables as lists of pairs -/

namespace Fields

variable {α : Type}

/-- Every name stands once in the list of a table. -/
theorem nodup_names (f : Fields α) : (f.toList.map Prod.fst).Nodup := by
  have hrising : (f.toList.map Prod.fst).Pairwise (· < ·) := List.pairwise_map.2 f.sorted
  refine hrising.imp ?_
  intro a b hlt heq
  exact String.lt_irrefl a (heq ▸ hlt)

end Fields

/-! ### The list -/

/-- Loads by key as one list, the oldest first, and how often one was looked for. -/
structure Shelf where
  pairs : List (String × LoadId) := []
  hits : Nat := 0
  misses : Nat := 0
  /-- Misses of a load that was there, but had failed. -/
  dropped : Nat := 0

namespace Shelf

/-- The pairs of all other keys. -/
def others (key : String) (pairs : List (String × LoadId)) : List (String × LoadId) :=
  pairs.filter fun p => p.1 != key

/-- Whether a load may be kept: it is valid, and its pixels can be read more than once. -/
def isShareable (loads : List Operation) (id : LoadId) : Bool :=
  loads[id]?.any fun op => !op.invalid && !op.isUnshareable

/-- The counts as the cache keeps them. -/
def stats (s : Shelf) : CacheStats where
  hits := .ofNat s.hits
  misses := .ofNat s.misses
  invalidated := .ofNat s.dropped

end Shelf

/-! ### The cache beside its list -/

namespace LoadCache

open Raster.Shelf

/-- The queue has the keys of a list in order, the table its pairs; there are no more than may be,
and the counts agree. -/
structure Mirrors (c : LoadCache) (s : Shelf) : Prop where
  queue : c.queue = s.pairs.map Prod.fst
  table : c.table.toList.Perm s.pairs
  bounded : s.pairs.length ≤ c.capacity
  stats : c.stats = s.stats

variable {c : LoadCache} {s : Shelf}

/-- What is handed out for a key is what it stands for, if that has not failed. -/
theorem lookUp_fst_eq_some {hasFailed : LoadId → Bool} {key : String} {id : LoadId} :
    (c.lookUp hasFailed key).1 = some id ↔ c.table.get? key = some id ∧ hasFailed id = false := by
  rw [lookUp]
  cases c.table.get? key with
  | none => simp
  | some found =>
    by_cases hfailed : hasFailed found = true
    · simp only [hfailed, if_true]
      constructor
      · nofun
      · rintro ⟨hfound, hlive⟩
        obtain rfl := Option.some.inj hfound
        rw [hfailed] at hlive
        cases hlive
    · simp only [hfailed]
      constructor
      · intro hfound
        obtain rfl := Option.some.inj hfound
        exact ⟨rfl, Bool.eq_false_iff.2 hfailed⟩
      · rintro ⟨hfound, -⟩
        exact hfound

namespace Mirrors

/-- Every key is listed once. -/
theorem nodup (h : c.Mirrors s) : (s.pairs.map Prod.fst).Nodup :=
  (h.table.map Prod.fst).nodup_iff.1 c.table.nodup_names

/-- There are no more loads than may be. -/
theorem size_le (h : c.Mirrors s) : c.size ≤ c.capacity := by
  have hlen : c.size = s.pairs.length := h.table.length_eq
  rw [hlen]
  exact h.bounded

/-- Forgetting a key takes its pair from the list. -/
theorem forget (h : c.Mirrors s) (key : String) :
    (c.forget key).Mirrors { s with pairs := others key s.pairs } where
  queue := by
    rw [LoadCache.forget, h.queue, others, List.filter_map]
    rfl
  table := h.table.filter _
  bounded := Nat.le_trans (List.length_filter_le ..) h.bounded
  stats := h.stats

end Mirrors

end LoadCache

/-! ### In a session -/

namespace World

/-- The session with another cache. -/
def withCache (w : World) (cache : LoadCache) : World := { w with cache }

section

variable (w : World) (c : LoadCache)

/-- Getting pixels does not look at the cache. -/
theorem pixels_withCache (id : LoadId) :
    (w.withCache c).pixels id = ((w.pixels id).1, (w.pixels id).2.withCache c) := by
  have hop : (w.withCache c).operation? id = w.operation? id := rfl
  cases hasked : w.operation? id with
  | none => rw [pixels_none hasked, pixels_none (hop.trans hasked)]
  | some op =>
    cases hphase : op.phase with
    | decoded image =>
      rw [pixels_decoded hasked hphase, pixels_decoded (hop.trans hasked) hphase]
    | failed => rw [pixels_failed hasked hphase, pixels_failed (hop.trans hasked) hphase]
    | headerRead =>
      rw [pixels_headerRead hasked hphase, pixels_headerRead (hop.trans hasked) hphase]
      rfl

/-- Nor does answering for a rectangle. -/
theorem answer_withCache (id : LoadId) (r : Rect) :
    answer id r (w.withCache c) = ((answer id r w).1, (answer id r w).2.withCache c) := by
  simp only [answer, pixels_withCache]
  obtain ⟨result, w'⟩ := w.pixels id
  cases result with
  | error e => rfl
  | ok image =>
    have hfetch : image.fetchFrom (w'.withCache c).files r = image.fetchFrom w'.files r := rfl
    simp only [hfetch]
    cases image.fetchFrom w'.files r <;> rfl

end

/-- What is kept is a load that may be shared. -/
theorem remember_eq (w : World) (key : String) (id : LoadId) :
    w.remember key id =
      if Shelf.isShareable w.operations id then w.withCache (w.cache.insert key id) else w := by
  rw [remember, operation?, Shelf.isShareable]
  cases w.operations[id]? with
  | none => rfl
  | some op =>
    cases hunshareable : op.isUnshareable <;> cases hinvalid : op.invalid <;>
      simp [hunshareable, hinvalid, withCache]

/-- So a load is handed out where there is one that is not invalid. -/
theorem hasFailed_eq_false {w : World} {id : LoadId} :
    w.hasFailed id = false ↔ ∃ op, w.operation? id = some op ∧ op.invalid = false := by
  rw [hasFailed]
  cases w.operation? id <;> simp

end World

end Raster
