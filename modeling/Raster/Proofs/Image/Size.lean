/-
# Sizes of images as numbers

Sizes are 64-bit words that wrap; a pixel is never too large for one. Where the
whole image fits a word (`toNat_imageSize`), and so where `checkedImageSize` answers,
pixel, row and image have as many bytes as the products of the dimensions say.

| word | number |
| --- | --- |
| `pixelSize` | `pixelBytes = bands * size` |
| `lineSize` | `lineBytes = pixelBytes * width` |
| `imageSize` | `imageBytes = lineBytes * height` |
-/
import Raster.Image.Header

namespace Raster

/-- The widest sample has sixteen bytes. -/
theorem BandFormat.size_le (f : BandFormat) : f.size ≤ 16 := by cases f <;> decide

namespace Header

/-- Pixels follow each other along the rows. -/
theorem mul_lineBytes_add (h : Header) (y x : Nat) :
    y * h.lineBytes + x * h.pixelBytes = (y * h.width.toNat + x) * h.pixelBytes := by
  rw [lineBytes, Nat.mul_comm h.pixelBytes, ← Nat.mul_assoc, ← Nat.add_mul]

/-- Whether no dimension is above the cap for headers from outside. -/
def Capped (h : Header) : Prop :=
  h.width ≤ maxDimension ∧ h.height ≤ maxDimension ∧ h.bands ≤ maxDimension

instance (h : Header) : Decidable h.Capped := inferInstanceAs (Decidable (_ ∧ _ ∧ _))

/-- What comes of a checked product is the product as a number. -/
theorem checkedMul_eq_some {a b c : UInt64} :
    checkedMul a b = some c ↔ a.toNat * b.toNat = c.toNat := by
  have hc := c.toNat_lt
  rw [checkedMul]
  split
  · rename_i h
    rw [Option.some.injEq, ← UInt64.toNat_inj, UInt64.toNat_mul, Nat.mod_eq_of_lt h]
  · rename_i h
    simp only [reduceCtorEq, false_iff]
    intro heq
    exact h (by rw [heq]; exact hc)

/-- And what comes of a checked sum the sum. -/
theorem checkedAdd_eq_some {a b c : UInt64} :
    checkedAdd a b = some c ↔ a.toNat + b.toNat = c.toNat := by
  have hc := c.toNat_lt
  rw [checkedAdd]
  split
  · rename_i h
    rw [Option.some.injEq, ← UInt64.toNat_inj, UInt64.toNat_add, Nat.mod_eq_of_lt h]
  · rename_i h
    simp only [reduceCtorEq, false_iff]
    intro heq
    exact h (by rw [heq]; exact hc)

/-- A pixel is never too large for a word. -/
theorem toNat_pixelSize (h : Header) : h.pixelSize.toNat = h.pixelBytes := by
  have hb := h.bands.toNat_lt
  have hs := h.format.size_le
  have hp : h.bands.toNat * h.format.size ≤ h.bands.toNat * 16 := Nat.mul_le_mul_left _ hs
  rw [pixelSize, UInt64.toNat_mul, UInt32.toNat_toUInt64, UInt64.toNat_ofNat', pixelBytes,
    Nat.mod_eq_of_lt (show h.format.size < 2 ^ 64 by omega), Nat.mod_eq_of_lt (by omega)]

/-- A row is counted modulo the size of a word. -/
theorem toNat_lineSize_mod (h : Header) : h.lineSize.toNat = h.lineBytes % UInt64.size := by
  rw [lineSize, UInt64.toNat_mul, toNat_pixelSize, UInt32.toNat_toUInt64, lineBytes]

/-- An image that fits a word is counted right, whether or not a row of it does. -/
theorem toNat_imageSize {h : Header} (hlt : h.imageBytes < UInt64.size) :
    h.imageSize.toNat = h.imageBytes := by
  rw [imageSize, UInt64.toNat_mul, toNat_lineSize_mod, UInt32.toNat_toUInt64]
  exact (Nat.mod_mul_mod ..).trans (Nat.mod_eq_of_lt hlt)

namespace Capped

variable {h : Header}

/-- Under the cap a pixel is not large. -/
theorem pixelBytes_le (hc : h.Capped) : h.pixelBytes ≤ 160000000 := by
  have hb : h.bands.toNat ≤ 10000000 := UInt32.le_iff_toNat_le.1 hc.2.2
  calc h.pixelBytes ≤ 10000000 * 16 := Nat.mul_le_mul hb h.format.size_le
    _ = 160000000 := rfl

/-- Nor is a row, which is why its size is a word. -/
theorem lineBytes_le (hc : h.Capped) : h.lineBytes ≤ 1600000000000000 := by
  have hw : h.width.toNat ≤ 10000000 := UInt32.le_iff_toNat_le.1 hc.1
  calc h.lineBytes ≤ 160000000 * 10000000 := Nat.mul_le_mul hc.pixelBytes_le hw
    _ = 1600000000000000 := rfl

/-- So the size of a row is what it says. -/
theorem toNat_lineSize (hc : h.Capped) : h.lineSize.toNat = h.lineBytes := by
  have hl := hc.lineBytes_le
  rw [toNat_lineSize_mod, Nat.mod_eq_of_lt (Nat.lt_of_le_of_lt hl (by decide))]

end Capped

/-- **The size of an image is known exactly where the dimensions are capped and the product fits a
word; it is that product.** -/
theorem checkedImageSize_eq_some {h : Header} {n : UInt64} :
    h.checkedImageSize = some n ↔ h.Capped ∧ h.imageBytes = n.toNat := by
  by_cases hc : h.Capped
  · obtain ⟨hw, hh, hb⟩ := hc
    have hcap : ¬(maxDimension < h.width ∨ maxDimension < h.height ∨ maxDimension < h.bands) := by
      rintro (hlt | hlt | hlt)
      · exact absurd hlt (UInt32.not_lt.2 hw)
      · exact absurd hlt (UInt32.not_lt.2 hh)
      · exact absurd hlt (UInt32.not_lt.2 hb)
    have hc : h.Capped := ⟨hw, hh, hb⟩
    have hpixel : checkedMul h.bands.toUInt64 (UInt64.ofNat h.format.size) = some h.pixelSize := by
      have hs := h.format.size_le
      rw [checkedMul_eq_some, toNat_pixelSize, UInt32.toNat_toUInt64, UInt64.toNat_ofNat',
        Nat.mod_eq_of_lt (show h.format.size < 2 ^ 64 by omega), pixelBytes]
    have hline : checkedMul h.pixelSize h.width.toUInt64 = some h.lineSize := by
      rw [checkedMul_eq_some, hc.toNat_lineSize, toNat_pixelSize, UInt32.toNat_toUInt64, lineBytes]
    rw [checkedImageSize, if_neg hcap, hpixel, Option.bind_eq_bind, Option.bind_some, hline,
      Option.bind_some, checkedMul_eq_some, hc.toNat_lineSize, UInt32.toNat_toUInt64]
    exact ⟨fun heq => ⟨hc, heq⟩, fun heq => heq.2⟩
  · have hcap : maxDimension < h.width ∨ maxDimension < h.height ∨ maxDimension < h.bands := by
      simp only [Capped, ← UInt32.not_lt] at hc
      grind
    rw [checkedImageSize, if_pos hcap]
    exact ⟨fun heq => absurd heq (by simp), fun heq => absurd heq.1 hc⟩

/-- Where the size of an image is known, it fits a word. -/
theorem imageBytes_lt {h : Header} {n : UInt64} (hn : h.checkedImageSize = some n) :
    h.imageBytes < UInt64.size := by
  rw [(checkedImageSize_eq_some.1 hn).2]
  exact n.toNat_lt

/-- Where the size of an image is known, the word for it does not wrap. -/
theorem imageSize_eq {h : Header} {n : UInt64} (hn : h.checkedImageSize = some n) :
    h.imageSize = n := by
  rw [← UInt64.toNat_inj, toNat_imageSize (imageBytes_lt hn), (checkedImageSize_eq_some.1 hn).2]

end Header

end Raster
