/-
# Pixel by pixel

Packed pixels are numbered row after row. A rectangle inside the image is a list of
such numbers (`Rect.indices`), and its window is what stands at them
(`Rect.window_eq_flatMap`). A lazy transformation cuts the window into pixels again,
transforms each and joins them; so where it makes pixels of the announced size, it
shows the transformed array (`Image.Coherent.map`), whatever rectangle is asked for.

| word | number |
| --- | --- |
| `Rect.area` | pixels of a rectangle (`toNat_area`) |
| `Rect.window` | as many bytes as these pixels have (`length_window`) |
-/
import Raster.Proofs.Bytes
import Raster.Proofs.Image.Window

namespace Raster

/-! ### Pieces of one length -/

namespace Bytes

variable {α : Type} {n : Nat}

/-- Pieces of one length make a multiple of it. -/
theorem length_flatMap {l : List α} {piece : α → Bytes} (hpiece : ∀ x ∈ l, (piece x).length = n) :
    (l.flatMap piece).length = l.length * n := by
  rw [List.length_flatMap, List.map_congr_left hpiece, List.map_const', List.sum_replicate_nat]

/-- Pieces that were joined are cut apart again. -/
theorem chunks_flatMap (hn : 0 < n) {piece : α → Bytes} :
    ∀ {l : List α}, (∀ x ∈ l, (piece x).length = n) → chunks n (l.flatMap piece) = l.map piece
  | [], _ => by simp [chunks_eq]
  | x :: l, hpiece => by
    rw [List.flatMap_cons, chunks_append hn (hpiece x List.mem_cons_self), List.map_cons,
      chunks_flatMap hn fun y hy => hpiece y (List.mem_cons_of_mem _ hy)]

/-- Piece `k` of the first `m` pieces joined. -/
theorem take_drop_flatMap {m k : Nat} {piece : Nat → Bytes}
    (hpiece : ∀ i < m, (piece i).length = n) (hk : k < m) :
    (((List.range m).flatMap piece).drop (k * n)).take n = piece k := by
  have hfront : ((List.range k).flatMap piece).length = k * n := by
    rw [length_flatMap fun i hi => hpiece i (Nat.lt_trans (List.mem_range.1 hi) hk),
      List.length_range]
  obtain ⟨rest, rfl⟩ : ∃ rest, m = k + (rest + 1) := ⟨m - k - 1, by omega⟩
  rw [List.range_add, List.flatMap_append, ← hfront, List.drop_left, List.range_succ_eq_map,
    List.map_cons, List.flatMap_cons, Nat.add_zero, List.take_left' (hpiece k hk)]

end Bytes

/-! ### Pixels by number -/

namespace Header

variable {h : Header}

/-- How many pixels there are. -/
def pixelCount (h : Header) : Nat := h.width.toNat * h.height.toNat

/-- The pixel with a number. -/
def pixelAt (h : Header) (pixels : Bytes) (i : Nat) : Bytes :=
  (pixels.drop (i * h.pixelBytes)).take h.pixelBytes

/-- The bytes of an image, counted by pixels. -/
theorem imageBytes_eq (h : Header) : h.imageBytes = h.pixelCount * h.pixelBytes := by
  rw [imageBytes, lineBytes, pixelCount, Nat.mul_assoc, Nat.mul_comm]

/-- No pixel is empty. -/
theorem pixelBytes_pos (hbands : 0 < h.bands.toNat) : 0 < h.pixelBytes :=
  Nat.mul_pos hbands h.format.size_pos

/-- A pixel inside the image is whole. -/
theorem length_pixelAt {pixels : Bytes} (hlength : h.imageBytes ≤ pixels.length) {i : Nat}
    (hi : i < h.pixelCount) : (h.pixelAt pixels i).length = h.pixelBytes := by
  have hend : (i + 1) * h.pixelBytes ≤ pixels.length := by
    refine Nat.le_trans ?_ hlength
    rw [imageBytes_eq]
    exact Nat.mul_le_mul_right _ hi
  rw [Nat.succ_mul] at hend
  rw [pixelAt, List.length_take, List.length_drop]
  omega

/-- All pixels, each one transformed. -/
def mapped (h : Header) (pixel : Bytes → Option Bytes) (pixels : Bytes) : Bytes :=
  (List.range h.pixelCount).flatMap fun i => (pixel (h.pixelAt pixels i)).getD []

end Header

namespace Rect

variable {h : Header} {r : Rect} {pixels : Bytes}

/-- The numbers of a rectangle's pixels. -/
def indices (h : Header) (r : Rect) : List Nat :=
  (List.range r.height.toNat).flatMap fun i =>
    (List.range r.width.toNat).map fun j => (r.top.toNat + i) * h.width.toNat + r.left.toNat + j

/-- The pixels of a rectangle by their row and column. -/
theorem mem_indices {i : Nat} :
    i ∈ r.indices h ↔ ∃ y < r.height.toNat, ∃ x < r.width.toNat,
      (r.top.toNat + y) * h.width.toNat + r.left.toNat + x = i := by
  simp only [indices, List.mem_flatMap, List.mem_map, List.mem_range]

/-- A rectangle inside the image has numbers of its pixels. -/
theorem index_lt (hfit : r.fits h = true) {i : Nat} (hi : i ∈ r.indices h) : i < h.pixelCount := by
  obtain ⟨hwidth, hheight⟩ := fits_iff.1 hfit
  obtain ⟨y, hy, x, hx, rfl⟩ := mem_indices.1 hi
  calc (r.top.toNat + y) * h.width.toNat + r.left.toNat + x
      < (r.top.toNat + y + 1) * h.width.toNat := by
        rw [Nat.succ_mul]
        omega
    _ ≤ h.height.toNat * h.width.toNat := Nat.mul_le_mul_right _ (by omega)
    _ = h.pixelCount := Nat.mul_comm ..

/-- There are as many as its sides say. -/
theorem length_indices (h : Header) (r : Rect) :
    (r.indices h).length = r.width.toNat * r.height.toNat := by
  simp only [indices, List.length_flatMap, List.length_map, List.length_range, List.map_const',
    List.sum_replicate_nat, Nat.mul_comm]

/-- **A window is what stands at the numbers of the rectangle.** -/
theorem window_eq_flatMap (h : Header) (r : Rect) (pixels : Bytes) :
    r.window h pixels = (r.indices h).flatMap (h.pixelAt pixels) := by
  rw [window, indices, List.flatMap_assoc]
  refine List.flatMap_congr fun i _ => ?_
  -- a row is cut at one offset, its pixels one after the other
  rw [rowOf, Header.mul_lineBytes_add, ← flatMap_slices, List.flatMap_map]
  refine List.flatMap_congr fun j _ => ?_
  rw [Header.pixelAt, List.drop_drop, ← Nat.add_mul]

/-- A rectangle inside shows all of its pixels, whole. -/
theorem length_window_of_le (hfit : r.fits h = true) (hlength : h.imageBytes ≤ pixels.length) :
    (r.window h pixels).length = r.width.toNat * r.height.toNat * h.pixelBytes := by
  rw [window_eq_flatMap,
    Bytes.length_flatMap fun i hi => Header.length_pixelAt hlength (index_lt hfit hi),
    length_indices]

end Rect

/-! ### Transforming every pixel -/

/-- The pixels of a window, each one transformed. -/
theorem Source.mapPixels_window {h : Header} {r : Rect} {pixels : Bytes}
    {pixel : Bytes → Option Bytes} {transformed : Nat → Bytes}
    (hlength : pixels.length = h.imageBytes) (hbands : 0 < h.bands.toNat) (hfit : r.fits h = true)
    (hpixel : ∀ i < h.pixelCount, pixel (h.pixelAt pixels i) = some (transformed i)) :
    mapPixels h pixel (r.window h pixels) = .ok ((r.indices h).flatMap transformed) := by
  have hpositive := Header.pixelBytes_pos hbands
  have hsize : h.pixelSize ≠ 0 := by
    intro hzero
    rw [← Header.toNat_pixelSize, hzero] at hpositive
    exact Nat.lt_irrefl 0 hpositive
  have hcut : Bytes.chunks h.pixelSize.toNat (r.window h pixels)
      = (r.indices h).map (h.pixelAt pixels) := by
    rw [Rect.window_eq_flatMap, Header.toNat_pixelSize]
    exact Bytes.chunks_flatMap hpositive fun i hi =>
      Header.length_pixelAt (Nat.le_of_eq hlength.symm) (Rect.index_lt hfit hi)
  have hall : (r.indices h).mapM (pixel ∘ h.pixelAt pixels)
      = some ((r.indices h).map transformed) :=
    mapM_eq_some fun i hi => hpixel i (Rect.index_lt hfit hi)
  rw [mapPixels, if_neg hsize, hcut, List.mapM_map, hall, List.flatMap_def]

/-- A transformed image of the same size answers as its input, transformed. -/
theorem Image.fetch_map {ι σ : Type} (files : σ → Files)
    (answer : ι → Rect → σ → Except Error Bytes × σ) (image : Image ι) (header : Header)
    (pixel : Bytes → Option Bytes) (hwidth : header.width = image.header.width)
    (hheight : header.height = image.header.height) (r : Rect) (s : σ) :
    (image.map header pixel).fetch files answer r s =
      next (image.fetch files answer r s)
        fun bytes s => (Source.mapPixels image.header pixel bytes, s) := by
  have hfits : r.fits header = r.fits image.header := by
    rw [Rect.fits, Rect.fits, hwidth, hheight]
  simp only [fetch, map, hfits, Source.fetch]
  split
  · cases hread : image.source.fetch files answer r s with
    | mk read s' => cases read <;> rfl
  · rfl

namespace Image

variable {image : Image Empty} {files : Files} {pixels : Bytes} {header : Header}
  {pixel : Bytes → Option Bytes}

/-- What a transformed image of the same size answers: the transformed pixels of what its input
answers. -/
theorem fetchFrom_map (hwidth : header.width = image.header.width)
    (hheight : header.height = image.header.height) (r : Rect) :
    (image.map header pixel).fetchFrom files r
      = image.fetchFrom files r >>= Source.mapPixels image.header pixel := by
  rw [fetchFrom, fetchFrom, fetch_map _ _ image header pixel hwidth hheight]
  generalize image.fetch _ _ r files = read
  obtain ⟨answer, -⟩ := read
  cases answer <;> rfl

/-- **A transformation that makes pixels of the announced size shows all of them transformed,**
whatever rectangle is asked for. -/
theorem Coherent.map (hcoherent : image.Coherent files pixels)
    (hbands : 0 < image.header.bands.toNat) (hwidth : header.width = image.header.width)
    (hheight : header.height = image.header.height)
    (hpixel : ∀ bytes : Bytes, bytes.length = image.header.pixelBytes →
      ∃ out, pixel bytes = some out ∧ out.length = header.pixelBytes) :
    (image.map header pixel).Coherent files (image.header.mapped pixel pixels) := by
  have hcount : header.pixelCount = image.header.pixelCount := by
    rw [Header.pixelCount, Header.pixelCount, hwidth, hheight]
  have hsome : ∀ i < image.header.pixelCount,
      pixel (image.header.pixelAt pixels i)
          = some ((pixel (image.header.pixelAt pixels i)).getD []) ∧
        ((pixel (image.header.pixelAt pixels i)).getD []).length = header.pixelBytes := by
    intro i hi
    obtain ⟨out, hout, hlength⟩ :=
      hpixel _ (Header.length_pixelAt (Nat.le_of_eq hcoherent.length.symm) hi)
    rw [hout]
    exact ⟨rfl, hlength⟩
  refine ⟨fun r (hfit : r.fits header = true) => ?_, ?_⟩
  · have hinput : r.fits image.header = true := by
      rw [Rect.fits_iff, ← hwidth, ← hheight]
      exact Rect.fits_iff.1 hfit
    have hread : (image.map header pixel).fetchFrom files r
        = .ok ((r.indices image.header).flatMap fun i =>
            (pixel (image.header.pixelAt pixels i)).getD []) := by
      rw [fetchFrom_map hwidth hheight, hcoherent.shows r hinput]
      exact Source.mapPixels_window hcoherent.length hbands hinput fun i hi => (hsome i hi).1
    have hindices : r.indices header = r.indices image.header := by
      rw [Rect.indices, Rect.indices, hwidth]
    -- Both sides list the pixels of the rectangle: read one by one, and cut out of the whole.
    rw [hread, Rect.window_eq_flatMap]
    refine congrArg _ (hindices ▸ List.flatMap_congr fun i hi => ?_)
    have hi := Rect.index_lt hinput (hindices ▸ hi)
    exact (Bytes.take_drop_flatMap (fun j hj => (hsome j hj).2) hi).symm
  · rw [Header.mapped, Bytes.length_flatMap fun i hi => (hsome i (List.mem_range.1 hi)).2,
      List.length_range, ← hcount]
    exact (Header.imageBytes_eq header).symm

end Image

end Raster
