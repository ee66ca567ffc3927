/-
# Savers

A saver receives a ready image and writes it to its target itself. What it does is a
chain of steps (`Saving`):

| step | effect |
| --- | --- |
| `fail` | the save ends with an error |
| `warn` | something is warned about |
| `fetch` | rectangles of the image are fetched one after the other |
| `write` | bytes are written to the target |

A fetch and a write may fail. The saver hears of it and decides what comes next; nearly
always it fails with the same error (`fetchAll`, `put`).
-/
import Raster.Image.Basic
import Raster.Options

namespace Raster

/-- What a saver sees of one save. -/
structure SaveJob where
  /-- The operation, such as `pngsave_target`. -/
  name : String
  header : Header
  metadata : Metadata
  /-- The options that are left for the saver. -/
  options : Options

/-- The saver's complaint about an image. -/
def SaveJob.fault (job : SaveJob) (message : String) : Error := .encode job.name message

/-- What a saver does with an image and a target, up to a result. -/
inductive Saving (α : Type) where
  | done (a : α)
  | fail (e : Error)
  | warn (messages : List String) (next : Saving α)
  | fetch (rects : List Rect) (next : Except Error Bytes → Saving α)
  | write (bytes : Bytes) (next : Except Error Unit → Saving α)

namespace Saving

variable {α β : Type}

/-- Goes on with the result. -/
def bind : Saving α → (α → Saving β) → Saving β
  | done a, f => f a
  | fail e, _ => fail e
  | warn messages next, f => warn messages (next.bind f)
  | fetch rects next, f => fetch rects fun pixels => (next pixels).bind f
  | write bytes next, f => write bytes fun answer => (next answer).bind f

instance : Monad Saving where
  pure := done
  bind := bind

/-- A calculation that may fail, as a step. -/
def lift : Except Error α → Saving α
  | .ok a => done a
  | .error e => fail e

/-- Warns. -/
def say (messages : List String) : Saving Unit := warn messages (done ())

/-- Fetches every pixel of an image with this header. -/
def fetchAll (h : Header) : Saving Bytes := fetch (Rect.strips h Image.stripHeight) lift

/-- Writes bytes to the target. -/
def put (bytes : Bytes) : Saving Unit := write bytes lift

end Saving

/-- An encoder of one format. -/
structure Saver where
  save : SaveJob → Saving Unit

end Raster
