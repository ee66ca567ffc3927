/-
# Changing the byte order of packed samples

`swapSamples` reverses every number by itself, and a number lies inside one
sample. So it works piece by piece where the pieces are whole samples
(`swapSamples_append`), undoes itself (`swapSamples_swapSamples`), and changes a
window of an image just as it changes the image (`Native.reorder_window`).
-/
import Raster.Native.Writer
import Raster.Proofs.Bytes
import Raster.Proofs.Image.Window

namespace Raster

namespace BandFormat

/-- Even half a sample has a byte. -/
theorem componentSize_pos (f : BandFormat) : 0 < f.componentSize := by cases f <;> decide

/-- A sample is one number or two. -/
theorem componentSize_dvd_size (f : BandFormat) : f.componentSize ∣ f.size := by cases f <;> decide

/-- What is shorter than a sample is left as it is. -/
theorem swapSamples_of_lt {f : BandFormat} {bytes : Bytes} (h : bytes.length < f.componentSize) :
    f.swapSamples bytes = bytes := by
  simp [swapSamples, Bytes.chunks_eq, Nat.div_eq_of_lt h]

/-- The number in front is reversed, whatever stands behind it. -/
theorem swapSamples_block {f : BandFormat} {a : Bytes} (ha : a.length = f.componentSize)
    (b : Bytes) :
    f.swapSamples (a ++ b) = a.reverse ++ f.swapSamples b := by
  have hpos := f.componentSize_pos
  by_cases hone : f.componentSize ≤ 1
  · obtain ⟨x, rfl⟩ := List.length_eq_one_iff.1 (show a.length = 1 by omega)
    simp [swapSamples, hone]
  · have hwhole : (a ++ b).length / f.componentSize * f.componentSize
        = a.length + b.length / f.componentSize * f.componentSize := by
      rw [List.length_append, ha, Nat.add_div_left _ hpos, Nat.succ_mul, Nat.add_comm]
    simp only [swapSamples, if_neg hone, Bytes.chunks_append hpos ha, hwhole, List.map_cons,
      List.flatten_cons, List.append_assoc, List.drop_append,
      List.drop_of_length_le (Nat.le_add_right ..)]
    simp

/-- Packed samples are a few bytes less than a number, or a number and what is behind it. -/
theorem number_induction (f : BandFormat) {P : Bytes → Prop}
    (short : ∀ b : Bytes, b.length < f.componentSize → P b)
    (block : ∀ a b : Bytes, a.length = f.componentSize → P b → P (a ++ b)) (bytes : Bytes) :
    P bytes := by
  have hpos := f.componentSize_pos
  by_cases h : bytes.length < f.componentSize
  · exact short bytes h
  · have hlen : (bytes.take f.componentSize).length = f.componentSize := by
      rw [List.length_take]
      omega
    have hrest := block _ _ hlen (number_induction f short block (bytes.drop f.componentSize))
    rwa [List.take_append_drop] at hrest
termination_by bytes.length
decreasing_by
  simp only [List.length_drop]
  omega

/-- Swapping moves bytes and loses none. -/
@[simp] theorem length_swapSamples (f : BandFormat) (bytes : Bytes) :
    (f.swapSamples bytes).length = bytes.length := by
  induction bytes using f.number_induction with
  | short b hb => rw [swapSamples_of_lt hb]
  | block a b ha ih => simp [swapSamples_block ha, ih]

/-- **Samples change their byte order piece by piece.** -/
theorem swapSamples_append {f : BandFormat} {a : Bytes} (h : f.componentSize ∣ a.length)
    (b : Bytes) :
    f.swapSamples (a ++ b) = f.swapSamples a ++ f.swapSamples b := by
  induction a using f.number_induction with
  | short a ha =>
    obtain rfl : a = [] := List.eq_nil_of_length_eq_zero (Nat.eq_zero_of_dvd_of_lt h ha)
    rw [swapSamples_of_lt ha]
    rfl
  | block c d hc ih =>
    have hd : f.componentSize ∣ d.length := by
      rw [List.length_append, hc] at h
      exact (Nat.dvd_add_right (Nat.dvd_refl _)).1 h
    rw [List.append_assoc, swapSamples_block hc, swapSamples_block hc, ih hd, List.append_assoc]

/-- **Changing the byte order twice changes nothing.** -/
@[simp] theorem swapSamples_swapSamples (f : BandFormat) (bytes : Bytes) :
    f.swapSamples (f.swapSamples bytes) = bytes := by
  induction bytes using f.number_induction with
  | short b hb => rw [swapSamples_of_lt hb, swapSamples_of_lt hb]
  | block a b ha ih =>
    rw [swapSamples_block ha, swapSamples_block (by rw [List.length_reverse, ha]),
      List.reverse_reverse, ih]

variable {f : BandFormat} {n : Nat}

/-- Whole samples in front can be swapped before or after they are taken. -/
theorem swapSamples_take (h : f.componentSize ∣ n) (bytes : Bytes) :
    f.swapSamples (bytes.take n) = (f.swapSamples bytes).take n := by
  rcases Nat.le_total bytes.length n with hle | hle
  · rw [List.take_of_length_le hle, List.take_of_length_le (by rw [length_swapSamples]; exact hle)]
  · have hlen : (bytes.take n).length = n := List.length_take_of_le hle
    conv => rhs; rw [← List.take_append_drop n bytes, swapSamples_append (by rwa [hlen])]
    rw [List.take_left' (by rw [length_swapSamples, hlen])]

/-- So can those that are left behind them. -/
theorem swapSamples_drop (h : f.componentSize ∣ n) (bytes : Bytes) :
    f.swapSamples (bytes.drop n) = (f.swapSamples bytes).drop n := by
  rcases Nat.le_total bytes.length n with hle | hle
  · rw [List.drop_of_length_le hle, List.drop_of_length_le (by rw [length_swapSamples]; exact hle)]
    exact swapSamples_of_lt f.componentSize_pos
  · have hlen : (bytes.take n).length = n := List.length_take_of_le hle
    conv => rhs; rw [← List.take_append_drop n bytes, swapSamples_append (by rwa [hlen])]
    rw [List.drop_left' (by rw [length_swapSamples, hlen])]

end BandFormat

namespace Native

/-- The order of samples has no say in their length. -/
@[simp] theorem length_reorder (f : BandFormat) (order : ByteOrder) (pixels : Bytes) :
    (reorder f order pixels).length = pixels.length := by
  rw [reorder]
  split
  · rfl
  · exact f.length_swapSamples pixels

/-- Pixels put in an order and back are as they were. -/
@[simp] theorem reorder_reorder (f : BandFormat) (order : ByteOrder) (pixels : Bytes) :
    reorder f order (reorder f order pixels) = pixels := by
  by_cases h : order = .machine <;> simp [reorder, h]

/-- No pixels, no order. -/
@[simp] theorem reorder_nil (f : BandFormat) (order : ByteOrder) : reorder f order [] = [] :=
  List.eq_nil_of_length_eq_zero (length_reorder f order [])

/-- A run of whole samples is put in order on its own, from the front. -/
theorem reorder_take {f : BandFormat} {n : Nat} (h : f.componentSize ∣ n) (order : ByteOrder)
    (pixels : Bytes) : reorder f order (pixels.take n) = (reorder f order pixels).take n := by
  by_cases ho : order = .machine
  · simp [reorder, ho]
  · simp [reorder, ho, BandFormat.swapSamples_take h]

/-- And from behind, so that a row can be cut out first and put in order then. -/
theorem reorder_drop {f : BandFormat} {n : Nat} (h : f.componentSize ∣ n) (order : ByteOrder)
    (pixels : Bytes) : reorder f order (pixels.drop n) = (reorder f order pixels).drop n := by
  by_cases ho : order = .machine
  · simp [reorder, ho]
  · simp [reorder, ho, BandFormat.swapSamples_drop h]

/-- Runs of whole samples are put in order one by one. -/
theorem reorder_append {f : BandFormat} {a : Bytes} (h : f.componentSize ∣ a.length)
    (order : ByteOrder) (b : Bytes) :
    reorder f order (a ++ b) = reorder f order a ++ reorder f order b := by
  by_cases ho : order = .machine
  · simp [reorder, ho]
  · simp [reorder, ho, BandFormat.swapSamples_append h]

/-- A window ends between two numbers, so it changes its byte order with the image. -/
theorem reorder_window {h : Header} {pixels : Bytes}
    (hlen : h.format.componentSize ∣ pixels.length) (order : ByteOrder) (r : Rect) :
    reorder h.format order (r.window h pixels) = r.window h (reorder h.format order pixels) := by
  have hpixel : h.format.componentSize ∣ h.pixelBytes :=
    Nat.dvd_mul_left_of_dvd h.format.componentSize_dvd_size _
  have hline : h.format.componentSize ∣ h.lineBytes := Nat.dvd_mul_right_of_dvd hpixel _
  have hrow : ∀ y, reorder h.format order (r.rowOf h pixels y)
      = r.rowOf h (reorder h.format order pixels) y := by
    intro y
    rw [Rect.rowOf, reorder_take (Nat.dvd_mul_left_of_dvd hpixel _), reorder_drop, Rect.rowOf]
    exact Nat.dvd_add (Nat.dvd_mul_left_of_dvd hline _) (Nat.dvd_mul_left_of_dvd hpixel _)
  have hdvd : ∀ y, h.format.componentSize ∣ (r.rowOf h pixels y).length := by
    intro y
    have hstart : h.format.componentSize ∣ y * h.lineBytes + r.left.toNat * h.pixelBytes :=
      Nat.dvd_add (Nat.dvd_mul_left_of_dvd hline _) (Nat.dvd_mul_left_of_dvd hpixel _)
    rw [Rect.rowOf, List.length_take, List.length_drop]
    rcases Nat.le_total (r.width.toNat * h.pixelBytes)
      (pixels.length - (y * h.lineBytes + r.left.toNat * h.pixelBytes)) with hle | hle
    · rw [Nat.min_eq_left hle]
      exact Nat.dvd_mul_left_of_dvd hpixel _
    · rw [Nat.min_eq_right hle]
      exact Nat.dvd_sub hlen hstart
  rw [Rect.window, Rect.window]
  induction List.range r.height.toNat with
  | nil => exact reorder_nil h.format order
  | cons i rows ih => rw [List.flatMap_cons, reorder_append (hdvd _), hrow, ih, List.flatMap_cons]

end Native

end Raster
