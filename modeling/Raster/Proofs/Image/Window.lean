/-
# Rectangles as windows of packed pixels

Packed pixels are rows of `lineBytes` bytes. A rectangle that lies inside the
image shows a window of them: from each of its rows the bytes between its sides.

| reader | answers a rectangle inside the image with |
| --- | --- |
| `Rect.cut` | the window of the array (`cut_eq_window`) |
| `readRows` | the window of what stands behind the offset (`readRows_eq_window`) |

Both calculate offsets in words; where the image fits a word, every row of the
rectangle is found all the same (`toNat_rowStart`). An image that answers every rectangle with its
window of some pixels shows them (`Image.Shows`); where these are as many as its
header says it is coherent (`Image.Coherent`), and fetching all of it gives them back
(`Coherent.fetchAllFrom`, `Coherent.fetchFrom_whole`).
-/
import Mathlib.Data.List.Basic
import Raster.Image.Store
import Raster.Proofs.Image.Size
import Raster.Proofs.Result

namespace Raster

/-! ### Lists of pieces -/

section Pieces

variable {α : Type}

/-- Neighbouring slices of `n` elements join. -/
theorem flatMap_slices (n k : Nat) (l : List α) :
    ((List.range k).flatMap fun i => (l.drop (i * n)).take n) = l.take (k * n) := by
  induction k with
  | zero => simp
  | succ k ih =>
    rw [List.range_succ, List.flatMap_append, ih, List.flatMap_singleton, Nat.succ_mul,
      List.take_add]

/-- The first `k` bands of `step` indices are the indices below `k * step`. -/
theorem flatMap_bands (f : Nat → List α) (step n k : Nat) :
    ((List.range k).flatMap fun i =>
      (List.range (min step (n - i * step))).flatMap fun j => f (i * step + j))
        = (List.range (min n (k * step))).flatMap f := by
  induction k with
  | zero => simp
  | succ k ih =>
    have hsplit : min n ((k + 1) * step) = min n (k * step) + min step (n - k * step) := by
      rw [Nat.succ_mul]
      omega
    rw [List.range_succ, List.flatMap_append, ih, List.flatMap_singleton, hsplit, List.range_add,
      List.flatMap_append, List.flatMap_map]
    -- a band that is not empty starts at `k * step`
    rcases Nat.le_total n (k * step) with h | h
    · simp [Nat.sub_eq_zero_of_le h]
    · rw [Nat.min_eq_right h]

/-- Bands of `step` indices cover all indices. -/
theorem flatMap_allBands (f : Nat → List α) {step : Nat} (hstep : 0 < step) (n : Nat) :
    ((List.range ((n + step - 1) / step)).flatMap fun i =>
      (List.range (min step (n - i * step))).flatMap fun j => f (i * step + j))
        = (List.range n).flatMap f := by
  have hlt := Nat.lt_div_mul_add (a := n + step - 1) hstep
  rw [flatMap_bands, Nat.min_eq_left (by omega)]

end Pieces

/-! ### Windows -/

namespace Rect

/-- The bytes of row `y` of packed pixels between the sides of a rectangle. -/
def rowOf (h : Header) (r : Rect) (pixels : Bytes) (y : Nat) : Bytes :=
  (pixels.drop (y * h.lineBytes + r.left.toNat * h.pixelBytes)).take (r.width.toNat * h.pixelBytes)

/-- What a rectangle shows of packed pixels, row after row. -/
def window (h : Header) (r : Rect) (pixels : Bytes) : Bytes :=
  (List.range r.height.toNat).flatMap fun i => r.rowOf h pixels (r.top.toNat + i)

variable {h : Header} {r : Rect}

/-- A rectangle is inside where its sides end inside, as numbers and not as words. -/
theorem fits_iff :
    r.fits h = true ↔ r.left.toNat + r.width.toNat ≤ h.width.toNat ∧
      r.top.toNat + r.height.toNat ≤ h.height.toNat := by
  simp [fits]

/-- Every row of a rectangle inside the image ends inside the pixels. -/
theorem row_end_le (hfit : r.fits h = true) {i : Nat} (hi : i < r.height.toNat) :
    (r.top.toNat + i) * h.lineBytes + r.left.toNat * h.pixelBytes + r.width.toNat * h.pixelBytes
      ≤ h.imageBytes := by
  obtain ⟨hw, hh⟩ := fits_iff.1 hfit
  have hside : r.left.toNat * h.pixelBytes + r.width.toNat * h.pixelBytes ≤ h.lineBytes := by
    rw [← Nat.add_mul, Header.lineBytes, Nat.mul_comm h.pixelBytes]
    exact Nat.mul_le_mul_right _ hw
  calc (r.top.toNat + i) * h.lineBytes + r.left.toNat * h.pixelBytes
        + r.width.toNat * h.pixelBytes
      ≤ (r.top.toNat + i + 1) * h.lineBytes := by
        rw [Nat.succ_mul]
        omega
    _ ≤ h.height.toNat * h.lineBytes := Nat.mul_le_mul_right _ (by omega)
    _ = h.imageBytes := Nat.mul_comm ..

/-- All rows of a rectangle inside the image have no more bytes than the image. -/
theorem total_le (hfit : r.fits h = true) :
    r.height.toNat * (r.width.toNat * h.pixelBytes) ≤ h.imageBytes := by
  obtain ⟨hw, hh⟩ := fits_iff.1 hfit
  calc r.height.toNat * (r.width.toNat * h.pixelBytes)
      ≤ h.height.toNat * (h.width.toNat * h.pixelBytes) :=
        Nat.mul_le_mul (by omega) (Nat.mul_le_mul_right _ (by omega))
    _ = h.imageBytes := by
        rw [Header.imageBytes, Header.lineBytes, Nat.mul_comm h.height.toNat,
          Nat.mul_comm h.pixelBytes]

/-- Bytes of one row of a rectangle inside the image, where it has one. -/
theorem toNat_rowBytes (hlt : h.imageBytes < UInt64.size) (hfit : r.fits h = true)
    (hrow : 0 < r.height.toNat) :
    (r.rowBytes h.pixelSize).toNat = r.width.toNat * h.pixelBytes := by
  have hend := row_end_le hfit hrow
  have hwidth : r.width.toNat * h.pixelBytes < UInt64.size := by omega
  rw [rowBytes, UInt64.toNat_mul, UInt32.toNat_toUInt64, Header.toNat_pixelSize,
    Nat.mod_eq_of_lt hwidth]

/-- Bytes of all rows of a rectangle inside the image. -/
theorem toNat_totalBytes (hlt : h.imageBytes < UInt64.size) (hfit : r.fits h = true) :
    (r.totalBytes h.pixelSize).toNat = r.height.toNat * (r.width.toNat * h.pixelBytes) := by
  rcases Nat.eq_zero_or_pos r.height.toNat with hnone | hrow
  · rw [totalBytes, UInt64.toNat_mul, UInt32.toNat_toUInt64, hnone, Nat.mul_zero, Nat.zero_mul,
      Nat.zero_mod]
  · have htotal := total_le hfit
    rw [totalBytes, UInt64.toNat_mul, UInt32.toNat_toUInt64, toNat_rowBytes hlt hfit hrow,
      Nat.mul_comm, Nat.mod_eq_of_lt (Nat.lt_of_le_of_lt htotal hlt)]

/-- The index of a row is no larger than two 32-bit words together. -/
theorem toNat_rowIndex (i : Nat) (hi : i < r.height.toNat) :
    (r.top.toUInt64 + UInt64.ofNat i).toNat = r.top.toNat + i := by
  have ht := r.top.toNat_lt
  have hh := r.height.toNat_lt
  rw [UInt64.toNat_add, UInt32.toNat_toUInt64, UInt64.toNat_ofNat',
    Nat.mod_eq_of_lt (show i < 2 ^ 64 by omega), Nat.mod_eq_of_lt (by omega)]

/-- **Where a row of a rectangle inside the image starts;** the steps of the calculation may wrap,
the result does not. -/
theorem toNat_rowStart (hlt : h.imageBytes < UInt64.size) (hfit : r.fits h = true) {i : Nat}
    (hi : i < r.height.toNat) :
    (r.rowStart h.lineSize h.pixelSize (r.top.toUInt64 + UInt64.ofNat i)).toNat
      = (r.top.toNat + i) * h.lineBytes + r.left.toNat * h.pixelBytes := by
  have hend := row_end_le hfit hi
  have hstart : (r.top.toNat + i) * h.lineBytes + r.left.toNat * h.pixelBytes < UInt64.size := by
    omega
  rw [rowStart, UInt64.toNat_add, UInt64.toNat_mul, UInt64.toNat_mul, toNat_rowIndex i hi,
    Header.toNat_lineSize_mod, Header.toNat_pixelSize, UInt32.toNat_toUInt64]
  calc _ = ((r.top.toNat + i) * h.lineBytes + r.left.toNat * h.pixelBytes) % UInt64.size := by
        simp only [UInt64.size, Nat.mul_mod_mod, Nat.mod_add_mod, Nat.add_mod_mod]
    _ = _ := Nat.mod_eq_of_lt hstart

/-- Behind an offset that leaves room for the image, a row starts as many bytes later. -/
theorem toNat_rowStart_behind {offset : UInt64} (hend : offset.toNat + h.imageBytes < UInt64.size)
    (hfit : r.fits h = true) {i : Nat} (hi : i < r.height.toNat) :
    (offset + r.rowStart h.lineSize h.pixelSize (r.top.toUInt64 + UInt64.ofNat i)).toNat
      = offset.toNat + ((r.top.toNat + i) * h.lineBytes + r.left.toNat * h.pixelBytes) := by
  have hrow := row_end_le hfit hi
  have hstart := toNat_rowStart (by omega) hfit hi
  simp only [UInt64.size] at hend
  rw [UInt64.toNat_add, hstart, Nat.mod_eq_of_lt (by omega)]

/-- A row of the rectangle ends where it should, behind an offset that leaves room for the image. -/
theorem toNat_rowEnd_behind {offset : UInt64} (hend : offset.toNat + h.imageBytes < UInt64.size)
    (hfit : r.fits h = true) {i : Nat} (hi : i < r.height.toNat) :
    (offset + r.rowStart h.lineSize h.pixelSize (r.top.toUInt64 + UInt64.ofNat i)
      + r.rowBytes h.pixelSize).toNat
      = offset.toNat + ((r.top.toNat + i) * h.lineBytes + r.left.toNat * h.pixelBytes)
        + r.width.toNat * h.pixelBytes := by
  have hrow := row_end_le hfit hi
  have hbytes := toNat_rowBytes (h := h) (by omega) hfit (by omega)
  have hstart := toNat_rowStart_behind hend hfit hi
  simp only [UInt64.size] at hend
  rw [UInt64.toNat_add, hstart, hbytes, Nat.mod_eq_of_lt (by omega)]

/-- The bytes between two words that are known as numbers. -/
theorem between?_eq_some {bytes : Array UInt8} {start stop : UInt64} {a k : Nat}
    (hstart : start.toNat = a) (hstop : stop.toNat = a + k) (hle : a + k ≤ bytes.size) :
    between? bytes start stop = some ((bytes.toList.drop a).take k) := by
  have hord : start ≤ stop := UInt64.le_iff_toNat_le.2 (by omega)
  rw [between?_eq, if_pos ⟨hord, by omega⟩, hstart, hstop, Nat.add_sub_cancel_left]

/-- **Cutting a rectangle out of all packed pixels gives its window.** -/
theorem cut_eq_window {bytes : Array UInt8} (hlt : h.imageBytes < UInt64.size)
    (hfit : r.fits h = true) (hsize : h.imageBytes ≤ bytes.size) :
    r.cut bytes h.lineSize h.pixelSize = .ok (r.window h bytes.toList) := by
  rw [cut, rows, List.mapM_map, mapM_eq_ok (g := fun i => r.rowOf h bytes.toList (r.top.toNat + i))]
  · simp [window, List.flatMap_def, bind, Except.bind, pure, Except.pure]
  · intro i hi
    have hi := List.mem_range.1 hi
    have hend := row_end_le hfit hi
    have hstart := toNat_rowStart hlt hfit hi
    have hbytes := toNat_rowBytes hlt hfit (by omega)
    simp only [UInt64.size] at hlt
    simp only [Function.comp_apply]
    rw [between?_eq_some hstart
      (by rw [UInt64.toNat_add, hstart, hbytes, Nat.mod_eq_of_lt (by omega)])
      (by omega), rowOf]

end Rect

/-- **Reading the rows of a rectangle from behind an offset gives the window of what stands
there.** -/
theorem readRows_eq_window {h : Header} {r : Rect} {offset : UInt64} {bytes : Array UInt8}
    (hlt : h.imageBytes < UInt64.size) (hfit : r.fits h = true)
    (hsize : offset.toNat + h.imageBytes ≤ bytes.size)
    (hseek : offset.toNat + h.imageBytes < 0x8000000000000000) :
    readRows (.ok bytes) offset h.lineSize h.pixelSize r
      = .ok (r.window h (bytes.toList.drop offset.toNat)) := by
  rcases Nat.eq_zero_or_pos r.height.toNat with hnone | hrow
  · have htotal : r.totalBytes h.pixelSize = 0 := by
      rw [← UInt64.toNat_inj, Rect.toNat_totalBytes hlt hfit, hnone, Nat.zero_mul]
      rfl
    simp [readRows, htotal, Rect.window, hnone, bind, Except.bind, pure, Except.pure]
  have hbytes := Rect.toNat_rowBytes hlt hfit hrow
  by_cases hzero : r.rowBytes h.pixelSize = 0
  · have hwidth : r.width.toNat * h.pixelBytes = 0 := by rw [← hbytes, hzero]; rfl
    simp [readRows, hzero, Rect.window, Rect.rowOf, hwidth, pure, Except.pure]
  · have hpositive : 0 < (r.rowBytes h.pixelSize).toNat :=
      Nat.pos_of_ne_zero fun h0 => hzero (UInt64.toNat_inj.1 h0)
    have htotal := Rect.toNat_totalBytes hlt hfit
    -- there is room for every row and for nothing else
    have hcount : (r.totalBytes h.pixelSize / r.rowBytes h.pixelSize).toNat = r.height.toNat := by
      rw [UInt64.toNat_div, htotal, ← hbytes, Nat.mul_div_cancel _ hpositive]
    have hrest : (r.totalBytes h.pixelSize % r.rowBytes h.pixelSize).toNat = 0 := by
      rw [UInt64.toNat_mod, htotal, ← hbytes, Nat.mul_mod_left]
    have hall : r.rows.take r.height.toNat = r.rows := List.take_of_length_le (by simp [Rect.rows])
    rw [readRows, if_neg hzero, hcount, hrest, hall, Rect.rows, List.mapM_map,
      mapM_eq_ok (g := fun i => r.rowOf h (bytes.toList.drop offset.toNat) (r.top.toNat + i))]
    · simp [Rect.window, List.flatMap_def, bind, Except.bind, pure, Except.pure]
    · intro i hi
      have hi := List.mem_range.1 hi
      have hend := Rect.row_end_le hfit hi
      have hword : offset.toNat + h.imageBytes < UInt64.size := by
        rw [UInt64.size]
        omega
      have hstart := Rect.toNat_rowStart_behind hword hfit hi
      simp only [Function.comp_apply]
      rw [if_neg (by omega), Rect.between?_eq_some hstart (Rect.toNat_rowEnd_behind hword hfit hi)
        (by omega), Rect.rowOf, List.drop_drop]

/-! ### Reading all of an image -/

namespace Rect

/-- Where a strip starts, and how many rows it has. -/
theorem toNat_strip {h : Header} {step i : Nat} (hi : i < (h.height.toNat + step - 1) / step) :
    i * step < h.height.toNat ∧ (UInt32.ofNat (i * step)).toNat = i * step ∧
      (UInt32.ofNat (min step (h.height.toNat - i * step))).toNat
        = min step (h.height.toNat - i * step) := by
  have hlt := h.height.toNat_lt
  have hstep : 0 < step := Nat.pos_of_ne_zero fun h0 => by simp [h0] at hi
  have hstart : i * step < h.height.toNat := by
    have hle : (i + 1) * step ≤ h.height.toNat + step - 1 := (Nat.le_div_iff_mul_le hstep).1 hi
    rw [Nat.succ_mul] at hle
    omega
  refine ⟨hstart, ?_, ?_⟩
  · exact UInt32.toNat_ofNat_of_lt' (by rw [UInt32.size]; omega)
  · exact UInt32.toNat_ofNat_of_lt' (by rw [UInt32.size]; omega)

/-- Every strip is inside the image. -/
theorem fits_of_mem_strips {h : Header} {step : Nat} {r : Rect} (hr : r ∈ strips h step) :
    r.fits h = true := by
  obtain ⟨i, hi, rfl⟩ := List.mem_map.1 hr
  obtain ⟨hstart, htop, hheight⟩ := toNat_strip (List.mem_range.1 hi)
  rw [fits_iff, htop, hheight]
  exact ⟨by simp, by omega⟩

/-- The window of a rectangle as wide as the image is a run of whole rows. -/
theorem window_fullWidth {h : Header} {r : Rect} (hleft : r.left = 0) (hwidth : r.width = h.width)
    (pixels : Bytes) :
    r.window h pixels = (List.range r.height.toNat).flatMap fun i =>
      (pixels.drop ((r.top.toNat + i) * h.lineBytes)).take h.lineBytes := by
  have hline : h.width.toNat * h.pixelBytes = h.lineBytes := Nat.mul_comm ..
  simp only [window, rowOf, hleft, hwidth, UInt32.toNat_zero, Nat.zero_mul, Nat.add_zero, hline]

/-- **The strips of an image, one below the other, show all of its pixels.** -/
theorem flatMap_window_strips (h : Header) {step : Nat} (hstep : 0 < step) (pixels : Bytes) :
    ((strips h step).flatMap fun r => r.window h pixels) = pixels.take h.imageBytes := by
  calc ((strips h step).flatMap fun r => r.window h pixels)
      = (List.range ((h.height.toNat + step - 1) / step)).flatMap fun i =>
          (List.range (min step (h.height.toNat - i * step))).flatMap fun j =>
            (pixels.drop ((i * step + j) * h.lineBytes)).take h.lineBytes := by
        rw [strips, List.flatMap_map]
        refine List.flatMap_congr fun i hi => ?_
        obtain ⟨-, htop, hheight⟩ := toNat_strip (List.mem_range.1 hi)
        rw [window_fullWidth rfl rfl, hheight, htop]
    _ = (List.range h.height.toNat).flatMap fun y =>
          (pixels.drop (y * h.lineBytes)).take h.lineBytes :=
        flatMap_allBands (fun y => (pixels.drop (y * h.lineBytes)).take h.lineBytes) hstep _
    _ = pixels.take h.imageBytes := by rw [flatMap_slices, Nat.mul_comm, Header.imageBytes]

end Rect

/-- A source that waits for no load leaves the world alone. -/
theorem Source.fetch_snd {σ : Type} (files : σ → Files)
    (answer : Empty → Rect → σ → Except Error Bytes × σ) (source : Source Empty) (r : Rect)
    (s : σ) :
    (source.fetch files answer r s).2 = s := by
  induction source with
  | direct id read => rfl
  | pending id load => exact nomatch load
  | mapped input shape pixel ih =>
    rw [Source.fetch]
    split
    · split
      · rename_i heq
        rw [heq] at ih
        exact ih
      · rename_i heq
        rw [heq] at ih
        exact ih
    · rfl

namespace Image

/-- Where each rectangle can be fetched and nothing changes, all of them can. -/
theorem fetchEach_eq_ok {ι σ : Type} {files : σ → Files}
    {answer : ι → Rect → σ → Except Error Bytes × σ} {image : Image ι} {s : σ}
    {g : Rect → Bytes} : ∀ {rects : List Rect},
      (∀ r ∈ rects, image.fetch files answer r s = (.ok (g r), s)) →
        image.fetchEach files answer rects s = (.ok (rects.flatMap g), s)
  | [], _ => rfl
  | r :: rest, h => by
    have hrest := fetchEach_eq_ok fun r' hr' => h r' (List.mem_cons_of_mem _ hr')
    simp only [fetchEach, h r List.mem_cons_self, hrest, List.flatMap_cons]

/-- Every rectangle inside the image shows its window of some packed pixels. -/
def Shows (image : Image Empty) (files : Files) (pixels : Bytes) : Prop :=
  ∀ r : Rect, r.fits image.header = true →
    image.fetchFrom files r = .ok (r.window image.header pixels)

/-- **Fetching all of an image that shows some pixels gives these pixels.** -/
theorem Shows.fetchAllFrom {image : Image Empty} {files : Files} {pixels : Bytes}
    (hshows : image.Shows files pixels) (hlen : pixels.length = image.header.imageBytes) :
    image.fetchAllFrom files = .ok pixels := by
  unfold Image.fetchAllFrom fetchAll
  rw [fetchEach_eq_ok (g := fun r => r.window image.header pixels)]
  · rw [Rect.flatMap_window_strips _ (by decide), List.take_of_length_le (by omega)]
  · intro r hr
    have hfit := Rect.fits_of_mem_strips hr
    refine Prod.ext (hshows r hfit) ?_
    rw [Image.fetch, if_pos hfit]
    exact Source.fetch_snd ..

/-- All rectangles inside an image are windows of one array of packed pixels, which has as many
bytes as the header says. -/
structure Coherent (image : Image Empty) (files : Files) (pixels : Bytes) : Prop where
  shows : image.Shows files pixels
  length : pixels.length = image.header.imageBytes

/-- Fetching everything gives all pixels, strip by strip. -/
theorem Coherent.fetchAllFrom {image : Image Empty} {files : Files} {pixels : Bytes}
    (hcoherent : image.Coherent files pixels) : image.fetchAllFrom files = .ok pixels :=
  hcoherent.shows.fetchAllFrom hcoherent.length

/-- What an image answers that reads its pixels itself. -/
theorem fetchFrom_direct {image : Image Empty} {id : Identity}
    {read : Files → Rect → Except Error Bytes} (hsource : image.source = .direct id read)
    {files : Files} {r : Rect} (hfit : r.fits image.header = true) :
    image.fetchFrom files r = read files r := by
  rw [fetchFrom, fetch, if_pos hfit, hsource]
  rfl

/-- The image over packed pixels. -/
def overBytes (id : Identity) (h : Header) (bytes : Bytes) : Image ι where
  header := h
  source := .direct id fun _ r => r.cut bytes.toArray h.lineSize h.pixelSize

/-- **An image is put over pixels that are as many as its header says,** if a word can count
them. -/
theorem ofBytes_eq_ok {id : Identity} {h : Header} {bytes : Bytes} {image : Image ι} :
    ofBytes id h bytes = .ok image ↔
      h.imageBytes < UInt64.size ∧ bytes.length = h.imageBytes ∧ image = overBytes id h bytes := by
  rw [ofBytes]
  split
  · rename_i hlarge
    exact ⟨nofun, fun h => absurd h.1 (Nat.not_lt.2 hlarge)⟩
  · rename_i hword
    have hword := Nat.not_le.1 hword
    rw [Header.toNat_imageSize hword]
    split
    · rename_i hlength
      exact ⟨fun h => ⟨hword, hlength, (Except.ok.inj h).symm⟩, fun h => h.2.2 ▸ rfl⟩
    · rename_i hlength
      exact ⟨nofun, fun h => absurd h.2.1 hlength⟩

/-- **An image over packed pixels shows them.** -/
theorem shows_of_ofBytes {id : Identity} {h : Header} {pixels : Bytes} {image : Image Empty}
    (hok : ofBytes id h pixels = .ok image) (files : Files) : image.Shows files pixels := by
  obtain ⟨hword, hlength, rfl⟩ := ofBytes_eq_ok.1 hok
  intro r hfit
  rw [fetchFrom_direct rfl hfit]
  exact Rect.cut_eq_window hword hfit (Nat.le_of_eq hlength.symm)

end Image

end Raster
