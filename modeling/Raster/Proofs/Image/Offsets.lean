/-
# Nothing wraps where the size of the image is known

Sizes and offsets are words, and nobody watches their products and sums while a rectangle is
fetched. The one check is `checkedImageSize`, which multiplies the same numbers in another order:

| word | is calculated from, in this order |
| --- | --- |
| `checkedImageSize` | bands, sample size, width, height |
| `Rect.totalBytes` | width of the rectangle, pixel size, height of the rectangle |
| start and end of a row | row by line size, left side by pixel size, offset, their sums, the row |

The last two are calculated once more with every step checked (`Rect.checkedTotal`,
`Rect.checkedSpan`), and come out as the words that `Rect.cut` and `readRows` use
(`Rect.Measured`, `Rect.Spanned`). A rectangle without rows fits into an image without rows, whose
size says nothing about the length of a row; there the caps on the dimensions keep the row a word
(`Header.Capped.rowBytes_lt`). `Header.exact_of_checkedImageSize` puts all of it together.
-/
import Raster.Proofs.Image.Pointwise

namespace Raster

/-! ### Calculating with checks -/

namespace Rect

/-- Bytes of all rows of a rectangle, if neither product wraps. -/
def checkedTotal (r : Rect) (pixel : UInt64) : Option UInt64 := do
  let row ← Header.checkedMul r.width.toUInt64 pixel
  Header.checkedMul row r.height.toUInt64

/-- Where row `y` of a rectangle starts and where it ends, in packed rows behind an offset, if
nothing wraps on the way. -/
def checkedSpan (r : Rect) (offset line pixel y : UInt64) : Option (UInt64 × UInt64) := do
  let above ← Header.checkedMul y line
  let beside ← Header.checkedMul r.left.toUInt64 pixel
  let front ← Header.checkedAdd offset above
  let start ← Header.checkedAdd front beside
  let row ← Header.checkedMul r.width.toUInt64 pixel
  let stop ← Header.checkedAdd start row
  return (start, stop)

variable {r : Rect}

/-- The total is calculated where a row is a word and all rows are one. -/
theorem checkedTotal_eq_some {pixel total : UInt64} :
    r.checkedTotal pixel = some total ↔ r.width.toNat * pixel.toNat < UInt64.size ∧
      r.width.toNat * pixel.toNat * r.height.toNat = total.toNat := by
  simp only [checkedTotal, Option.bind_eq_bind, Option.bind_eq_some_iff, Header.checkedMul_eq_some,
    UInt32.toNat_toUInt64]
  constructor
  · rintro ⟨row, hrow, htotal⟩
    rw [hrow]
    exact ⟨row.toNat_lt, htotal⟩
  · rintro ⟨hlt, htotal⟩
    have hrow := UInt64.toNat_ofNat_of_lt' hlt
    exact ⟨.ofNat _, hrow.symm, by rw [hrow, htotal]⟩

/-- No row is wanted, but a row would not be a word. -/
example : checkedTotal ⟨0, 0, 0xffffffff, 0⟩ 0x100000002 = none := by decide

/-- Start and end of a row are calculated where the end is a word. -/
theorem checkedSpan_eq_some {offset line pixel y start stop : UInt64} :
    r.checkedSpan offset line pixel y = some (start, stop) ↔
      start.toNat = offset.toNat + (y.toNat * line.toNat + r.left.toNat * pixel.toNat) ∧
        stop.toNat = start.toNat + r.width.toNat * pixel.toNat := by
  simp only [checkedSpan, Option.bind_eq_bind, Option.bind_eq_some_iff, Header.checkedMul_eq_some,
    Header.checkedAdd_eq_some, UInt32.toNat_toUInt64, Option.pure_def, Option.some.injEq,
    Prod.mk.injEq]
  constructor
  · rintro ⟨above, habove, beside, hbeside, front, hfront, _, hstart, row, hrow, _, hstop, rfl, rfl⟩
    omega
  · rintro ⟨hstart, hstop⟩
    -- every number on the way is at most the end
    have hlt : stop.toNat < UInt64.size := stop.toNat_lt
    have habove := UInt64.toNat_ofNat_of_lt' (n := y.toNat * line.toNat) (by omega)
    have hbeside := UInt64.toNat_ofNat_of_lt' (n := r.left.toNat * pixel.toNat) (by omega)
    have hfront := UInt64.toNat_ofNat_of_lt' (n := offset.toNat + y.toNat * line.toNat) (by omega)
    have hrow := UInt64.toNat_ofNat_of_lt' (n := r.width.toNat * pixel.toNat) (by omega)
    exact ⟨_, habove.symm, _, hbeside.symm, .ofNat (offset.toNat + y.toNat * line.toNat),
      by rw [habove, hfront], start, by rw [hfront, hbeside, hstart, Nat.add_assoc], _, hrow.symm,
      stop, by rw [hrow, hstop], rfl, rfl⟩

end Rect

/-! ### What does not wrap -/

/-- The words for the sizes of an image are the products that they stand for, and the whole image
has `n` bytes. -/
structure Header.Measured (h : Header) (n : UInt64) : Prop where
  bytes : n.toNat = h.width.toNat * h.height.toNat * h.bands.toNat * h.format.size
  pixel : h.pixelSize.toNat = h.bands.toNat * h.format.size
  line : h.lineSize.toNat = h.pixelSize.toNat * h.width.toNat
  image : h.imageSize.toNat = h.lineSize.toNat * h.height.toNat
  same : h.imageSize = n

namespace Rect

/-- The rows of a rectangle are counted and measured without a wrap, and have no more than the `n`
bytes of the image. -/
structure Measured (r : Rect) (h : Header) (n : UInt64) : Prop where
  /-- The row behind the last one is a 32-bit word. -/
  bottom : (r.top + r.height).toNat = r.top.toNat + r.height.toNat
  rows : r.rows.map UInt64.toNat = List.range' r.top.toNat r.height.toNat
  checked : r.checkedTotal h.pixelSize = some (r.totalBytes h.pixelSize)
  total : (r.totalBytes h.pixelSize).toNat = r.width.toNat * r.height.toNat * h.pixelSize.toNat
  inside : r.totalBytes h.pixelSize ≤ n

/-- Row `y` of a rectangle is found behind an offset without a wrap, and ends no later than the `n`
bytes of the image do. Packed rows in memory have no offset, which is an offset of zero. -/
structure Spanned (r : Rect) (h : Header) (n offset y : UInt64) : Prop where
  checked : r.checkedSpan offset h.lineSize h.pixelSize y =
    some (offset + r.rowStart h.lineSize h.pixelSize y,
      offset + r.rowStart h.lineSize h.pixelSize y + r.rowBytes h.pixelSize)
  start : (offset + r.rowStart h.lineSize h.pixelSize y).toNat =
    offset.toNat + (y.toNat * h.width.toNat + r.left.toNat) * h.pixelSize.toNat
  stop : (offset + r.rowStart h.lineSize h.pixelSize y + r.rowBytes h.pixelSize).toNat =
    (offset + r.rowStart h.lineSize h.pixelSize y).toNat + r.width.toNat * h.pixelSize.toNat
  inside : (offset + r.rowStart h.lineSize h.pixelSize y + r.rowBytes h.pixelSize).toNat ≤
    offset.toNat + n.toNat

end Rect

/-! ### Where the size of the image is known -/

variable {h : Header} {n : UInt64} {r : Rect}

namespace Header

/-- Where the size of an image is a word, so is every size on the way to it, for each of them is a
factor or less. -/
theorem measured (hn : h.checkedImageSize = some n) : h.Measured n := by
  obtain ⟨hcapped, hbytes⟩ := checkedImageSize_eq_some.1 hn
  refine ⟨?_, toNat_pixelSize h, ?_, ?_, imageSize_eq hn⟩
  · calc n.toNat = h.bands.toNat * h.format.size * h.width.toNat * h.height.toNat := hbytes.symm
      _ = h.width.toNat * h.height.toNat * h.bands.toNat * h.format.size := by ac_rfl
  · rw [hcapped.toNat_lineSize, toNat_pixelSize, lineBytes]
  · rw [toNat_imageSize (imageBytes_lt hn), hcapped.toNat_lineSize, imageBytes]

/-- A row of a rectangle inside the image is a word, also where the rectangle has no rows. -/
theorem Capped.rowBytes_lt (hcapped : h.Capped) (hfit : r.fits h = true) :
    r.width.toNat * h.pixelBytes < UInt64.size := by
  obtain ⟨hwidth, -⟩ := Rect.fits_iff.1 hfit
  calc r.width.toNat * h.pixelBytes ≤ h.width.toNat * h.pixelBytes :=
        Nat.mul_le_mul_right _ (by omega)
    _ = h.lineBytes := Nat.mul_comm ..
    _ ≤ 1600000000000000 := hcapped.lineBytes_le
    _ < UInt64.size := by decide

end Header

namespace Rect

/-- A rectangle inside an image ends inside it, without a wrap. -/
theorem toNat_bottom (hfit : r.fits h = true) :
    (r.top + r.height).toNat = r.top.toNat + r.height.toNat := by
  obtain ⟨-, hheight⟩ := fits_iff.1 hfit
  have hlt := h.height.toNat_lt
  rw [UInt32.toNat_add, Nat.mod_eq_of_lt (by omega)]

/-- The rows run from the top of the rectangle, one by one. -/
theorem map_toNat_rows (r : Rect) :
    r.rows.map UInt64.toNat = List.range' r.top.toNat r.height.toNat := by
  rw [rows, List.map_map, List.range'_eq_map_range]
  exact List.map_congr_left fun i hi => toNat_rowIndex i (List.mem_range.1 hi)

/-- The rows of a rectangle inside are no longer than those of the image. -/
theorem measured (hn : h.checkedImageSize = some n) (hfit : r.fits h = true) :
    r.Measured h n := by
  obtain ⟨hcapped, hbytes⟩ := Header.checkedImageSize_eq_some.1 hn
  have htotal : (r.totalBytes h.pixelSize).toNat
      = r.width.toNat * h.pixelSize.toNat * r.height.toNat := by
    rw [toNat_totalBytes (Header.imageBytes_lt hn) hfit, Header.toNat_pixelSize, Nat.mul_comm]
  refine ⟨toNat_bottom hfit, map_toNat_rows r, checkedTotal_eq_some.2 ⟨?_, htotal.symm⟩, ?_, ?_⟩
  · rw [Header.toNat_pixelSize]
    exact hcapped.rowBytes_lt hfit
  · rw [htotal, Nat.mul_right_comm]
  · rw [UInt64.le_iff_toNat_le, toNat_totalBytes (Header.imageBytes_lt hn) hfit, ← hbytes]
    exact total_le hfit

/-- And each of them ends before the image does. -/
theorem spanned (hn : h.checkedImageSize = some n) (hfit : r.fits h = true) {offset y : UInt64}
    (hend : offset.toNat + n.toNat < UInt64.size) (hy : y ∈ r.rows) : r.Spanned h n offset y := by
  obtain ⟨hcapped, hbytes⟩ := Header.checkedImageSize_eq_some.1 hn
  obtain ⟨i, hi, rfl⟩ := List.mem_map.1 hy
  have hi := List.mem_range.1 hi
  rw [← hbytes] at hend
  have hindex := toNat_rowIndex i hi
  have hstart := toNat_rowStart_behind hend hfit hi
  have hstop := toNat_rowEnd_behind hend hfit hi
  have hinside := row_end_le hfit hi
  -- so far the row goes by its place in the rectangle, from here on by its word
  rw [← hindex] at hstart hstop hinside
  refine ⟨checkedSpan_eq_some.2 ⟨?_, ?_⟩, ?_, ?_, ?_⟩
  · rw [hstart, hcapped.toNat_lineSize, Header.toNat_pixelSize]
  · rw [hstop, hstart, Header.toNat_pixelSize]
  · rw [hstart, Header.mul_lineBytes_add, Header.toNat_pixelSize]
  · rw [hstop, hstart, Header.toNat_pixelSize]
  · omega

/-- What is cut out of enough bytes has the length that was calculated. -/
theorem exists_cut (hn : h.checkedImageSize = some n) (hfit : r.fits h = true)
    {bytes : Array UInt8} (hsize : n.toNat ≤ bytes.size) :
    ∃ out, r.cut bytes h.lineSize h.pixelSize = .ok out ∧
      out.length = (r.totalBytes h.pixelSize).toNat := by
  rw [← (Header.checkedImageSize_eq_some.1 hn).2] at hsize
  refine ⟨_, cut_eq_window (Header.imageBytes_lt hn) hfit hsize, ?_⟩
  rw [length_window_of_le hfit hsize, (measured hn hfit).total, Header.toNat_pixelSize]

end Rect

/-- What is read behind an offset of a file that is long enough has the length that was
calculated. -/
theorem exists_readRows (hn : h.checkedImageSize = some n) (hfit : r.fits h = true)
    {bytes : Array UInt8} {offset : UInt64} (hsize : offset.toNat + n.toNat ≤ bytes.size)
    (hshort : bytes.size < 0x8000000000000000) :
    ∃ out, readRows (.ok bytes) offset h.lineSize h.pixelSize r = .ok out ∧
      out.length = (r.totalBytes h.pixelSize).toNat := by
  rw [← (Header.checkedImageSize_eq_some.1 hn).2] at hsize
  refine ⟨_, readRows_eq_window (Header.imageBytes_lt hn) hfit hsize (by omega), ?_⟩
  have hlength : h.imageBytes ≤ (bytes.toList.drop offset.toNat).length := by
    rw [List.length_drop, Array.length_toList]
    omega
  rw [Rect.length_window_of_le hfit hlength, (Rect.measured hn hfit).total,
    Header.toNat_pixelSize]

/-- **Where the size of an image is known, nothing wraps that is calculated from its header.** The
size is the product of the dimensions and of the sample size, and the words for pixel, row and image
are exact. So are, for every rectangle that fits, the bytes of all its rows, and start and end of
each row behind any offset that leaves the end of the image a word; no row ends behind the image.
Out of enough bytes the rectangle is cut, or read from a file, with the length that was
calculated. -/
theorem Header.exact_of_checkedImageSize (hn : h.checkedImageSize = some n) :
    h.Measured n ∧ ∀ r : Rect, r.fits h = true →
      r.Measured h n ∧
      (∀ offset : UInt64, offset.toNat + n.toNat < UInt64.size →
        ∀ y ∈ r.rows, r.Spanned h n offset y) ∧
      (∀ bytes : Array UInt8, n.toNat ≤ bytes.size →
        ∃ out, r.cut bytes h.lineSize h.pixelSize = .ok out ∧
          out.length = (r.totalBytes h.pixelSize).toNat) ∧
      ∀ (bytes : Array UInt8) (offset : UInt64), offset.toNat + n.toNat ≤ bytes.size →
        bytes.size < 0x8000000000000000 →
          ∃ out, readRows (.ok bytes) offset h.lineSize h.pixelSize r = .ok out ∧
            out.length = (r.totalBytes h.pixelSize).toNat :=
  ⟨measured hn, fun _ hfit =>
    ⟨Rect.measured hn hfit, fun _ hend _ hy => Rect.spanned hn hfit hend hy,
      fun _ hsize => Rect.exists_cut hn hfit hsize,
      fun _ _ hsize hshort => exists_readRows hn hfit hsize hshort⟩⟩

/-- The last pixel of an image at the caps, put as far back as it can be: its row ends at the
largest word. Two columns of a small image have eight bytes, cut out or read behind one byte. -/
theorem Header.exact_of_checkedImageSize_largest :
    let wide : Header :=
      { width := 10000000, height := 10000000, bands := 46116, format := .float,
        interpretation := .multiband }
    let last : Rect := ⟨9999999, 9999998, 1, 2⟩
    let small : Header :=
      { width := 3, height := 2, bands := 1, format := .ushort, interpretation := .grey16 }
    let columns : Rect := ⟨1, 0, 2, 2⟩
    let bytes : Array UInt8 := #[0, 1, 2, 3, 4, 5, 6, 7, 8, 9, 10, 11, 12]
    wide.checkedImageSize = some 18446400000000000000 ∧
      last.checkedSpan 344073709551615 wide.lineSize wide.pixelSize 9999999
        = some (18446744073709367151, 18446744073709551615) ∧
      (∃ out, columns.cut bytes small.lineSize small.pixelSize = .ok out ∧ out.length = 8) ∧
      ∃ out, readRows (.ok bytes) 1 small.lineSize small.pixelSize columns = .ok out ∧
        out.length = 8 := by
  intro wide last small columns bytes
  have hwide : wide.checkedImageSize = some 18446400000000000000 := by decide
  obtain ⟨-, hrects⟩ := exact_of_checkedImageSize hwide
  obtain ⟨-, hspans, -⟩ := hrects last (by decide)
  have hspan := hspans 344073709551615 (by decide) 9999999 (by decide)
  have hsmall : small.checkedImageSize = some 12 := by decide
  obtain ⟨-, hrects⟩ := exact_of_checkedImageSize hsmall
  obtain ⟨-, -, hcut, hread⟩ := hrects columns (by decide)
  exact ⟨hwide, hspan.checked.trans (by decide), hcut bytes (by decide),
    hread bytes 1 (by decide) (by decide)⟩

end Raster
