/-
# Rectangles

A rectangle of pixels, and how it is cut out of packed rows. Row `y` of the
rectangle starts at byte `y * line + left * pixel`; offsets are 64-bit words.
Packed rows are kept in an array, so that a row is found at once.
-/
import Raster.Bytes
import Raster.Error
import Raster.Image.Header

namespace Raster

/-- A rectangle of pixels. -/
structure Rect where
  left : UInt32
  top : UInt32
  width : UInt32
  height : UInt32
  deriving DecidableEq, Repr

namespace Rect

/-- All of an image. -/
def whole (h : Header) : Rect := ⟨0, 0, h.width, h.height⟩

/-- Whether a rectangle lies inside an image. -/
def fits (r : Rect) (h : Header) : Bool :=
  r.left.toNat + r.width.toNat ≤ h.width.toNat && r.top.toNat + r.height.toNat ≤ h.height.toNat

/-- The error for a rectangle that does not. -/
def outside (r : Rect) : Error := .badRegion r.left r.top r.width r.height

/-- The rows of a rectangle, from the top. -/
def rows (r : Rect) : List UInt64 :=
  (List.range r.height.toNat).map fun i => r.top.toUInt64 + UInt64.ofNat i

/-- Bytes of one row of a rectangle. -/
def rowBytes (r : Rect) (pixel : UInt64) : UInt64 := r.width.toUInt64 * pixel

/-- Bytes of all rows of a rectangle. -/
def totalBytes (r : Rect) (pixel : UInt64) : UInt64 := r.rowBytes pixel * r.height.toUInt64

/-- Where row `y` of a rectangle starts in packed rows of `line` bytes. -/
def rowStart (r : Rect) (line pixel y : UInt64) : UInt64 := y * line + r.left.toUInt64 * pixel

/-- The bytes from one offset to another, if they are there. -/
def between? (bytes : Array UInt8) (start stop : UInt64) : Option Bytes :=
  if start ≤ stop ∧ stop.toNat ≤ bytes.size then
    some (bytes.extract start.toNat stop.toNat).toList
  else none

/-- The bytes between two places, as the list functions have them. -/
theorem between?_eq (bytes : Array UInt8) (start stop : UInt64) :
    between? bytes start stop =
      if start ≤ stop ∧ stop.toNat ≤ bytes.size then
        some ((bytes.toList.drop start.toNat).take (stop.toNat - start.toNat))
      else none := by
  simp [between?, List.extract_eq_take_drop]

/-- Cuts a rectangle out of packed rows. -/
def cut (bytes : Array UInt8) (line pixel : UInt64) (r : Rect) : Except Error Bytes := do
  let rows ← r.rows.mapM fun y =>
    let start := r.rowStart line pixel y
    match between? bytes start (start + r.rowBytes pixel) with
    | some row => .ok row
    | none => .error r.outside
  return rows.flatten

/-- The bands of rows that an image is read in: `step` rows each, the last one with what is
left. -/
def strips (h : Header) (step : Nat) : List Rect :=
  (List.range ((h.height.toNat + step - 1) / step)).map fun i =>
    ⟨0, UInt32.ofNat (i * step), h.width, UInt32.ofNat (min step (h.height.toNat - i * step))⟩

end Rect

end Raster
