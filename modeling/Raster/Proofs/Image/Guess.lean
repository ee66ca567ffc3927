/-
# What a guess is worth

The interpretation of an uncoded image is believed where it can belong to the shape, and
guessed from bands and format where it cannot. Either way a space that can be read has the
bands that carry its colour (`bandsOf_sourceSpace_le`), so no conversion lacks bands.

| word | holds |
| --- | --- |
| `hasAlpha` | of two bands where the guess is grey, of four where it is not CMYK, of more always |
| `sourceSpace` | the guess, or RGB or grey where the guess cannot be read |
-/
import Raster.Proofs.Image.Pixel

namespace Raster

namespace Header

variable {h : Header}

/-- A label that fits the shape is believed. -/
theorem guessInterpretation_of_fits (hfits : h.interpretationFits = true) :
    h.guessInterpretation = h.interpretation := if_pos hfits

/-- One that does not is replaced by what the shape suggests. -/
theorem guessInterpretation_of_not_fits (hfits : h.interpretationFits = false) :
    h.guessInterpretation = h.defaultInterpretation :=
  if_neg (Bool.eq_false_iff.1 hfits)

/-! ### Alpha -/

/-- Where alpha is seen: behind grey, behind three bands that are no CMYK, and behind any four. -/
theorem hasAlpha_iff : h.hasAlpha = true ↔
    h.bands = 2 ∧ (h.guessInterpretation = .bw ∨ h.guessInterpretation = .grey16) ∨
      h.bands = 4 ∧ h.guessInterpretation ≠ .cmyk ∨ 4 < h.bands := by
  simp [hasAlpha, or_assoc]

/-- So alpha is never the only band. -/
theorem two_le_of_hasAlpha (halpha : h.hasAlpha = true) : 2 ≤ h.bands.toNat := by
  rcases hasAlpha_iff.1 halpha with ⟨hbands, -⟩ | ⟨hbands, -⟩ | hbands
  · rw [hbands]
    decide
  · rw [hbands]
    decide
  · exact Nat.le_trans (by decide) (Nat.le_of_lt (UInt32.lt_iff_toNat_lt.1 hbands))

/-- One band and three are colour alone. -/
theorem hasAlpha_of_odd (hbands : h.bands = 0 ∨ h.bands = 1 ∨ h.bands = 3) :
    h.hasAlpha = false := by
  rcases hbands with hbands | hbands | hbands <;> simp [hasAlpha, hbands]

/-! ### Bands of a space -/

/-- A label that fits asks for no more bands than there are. -/
theorem bandsOf_interpretation_le (hplain : h.coding = .none) (hbands : 0 < h.bands)
    (hfits : h.interpretationFits = true) :
    Colour.bandsOf h.interpretation ≤ h.bands.toNat := by
  unfold interpretationFits at hfits
  rw [hplain] at hfits
  have hone : 1 ≤ h.bands.toNat := UInt32.lt_iff_toNat_lt.1 hbands
  have hthree : decide (3 ≤ h.bands) = true → 3 ≤ h.bands.toNat := fun hle =>
    UInt32.le_iff_toNat_le.1 (of_decide_eq_true hle)
  cases hspace : h.interpretation with
  | multiband | bw | grey16 | histogram | fourier | matrix | labq => exact hone
  | lch | cmc | yxy | hsv | rgb | srgb =>
    rw [hspace] at hfits
    exact hthree hfits
  | scrgb | xyz | lab =>
    rw [hspace] at hfits
    exact hthree (Bool.and_eq_true_iff.1 hfits).1
  | labs | rgb16 =>
    rw [hspace] at hfits
    exact hthree (Bool.and_eq_true_iff.1 hfits).2
  | cmyk =>
    rw [hspace] at hfits
    exact UInt32.le_iff_toNat_le.1 (of_decide_eq_true hfits)

/-- Nor does what the shape suggests. -/
theorem bandsOf_defaultInterpretation_le (hplain : h.coding = .none) (hbands : 0 < h.bands) :
    Colour.bandsOf h.defaultInterpretation ≤ h.bands.toNat := by
  have hone : 1 ≤ h.bands.toNat := UInt32.lt_iff_toNat_lt.1 hbands
  unfold defaultInterpretation
  rw [hplain]
  dsimp only
  split_ifs with hcomplex hsixteen hthree hmany hthree
  · exact hone
  · exact UInt32.le_iff_toNat_le.1 hthree
  · exact hone
  · exact hone
  · exact UInt32.le_iff_toNat_le.1 hthree
  · exact hone

/-- **The space that an uncoded image is read in has its colour bands there.** -/
theorem bandsOf_sourceSpace_le (hplain : h.coding = .none) (hbands : 0 < h.bands) :
    Colour.bandsOf (Colour.sourceSpace h) ≤ h.bands.toNat := by
  simp only [Colour.sourceSpace]
  split_ifs with hread hthree
  · cases hfits : h.interpretationFits with
    | true =>
      rw [guessInterpretation_of_fits hfits]
      exact bandsOf_interpretation_le hplain hbands hfits
    | false =>
      rw [guessInterpretation_of_not_fits hfits]
      exact bandsOf_defaultInterpretation_le hplain hbands
  · exact UInt32.le_iff_toNat_le.1 hthree
  · exact UInt32.lt_iff_toNat_lt.1 hbands

/-- Nothing but the label makes an uncoded image CMYK. -/
theorem guessInterpretation_eq_cmyk (hplain : h.coding = .none) :
    h.guessInterpretation = .cmyk ↔ h.interpretation = .cmyk ∧ 4 ≤ h.bands := by
  cases hfits : h.interpretationFits with
  | true =>
    rw [guessInterpretation_of_fits hfits]
    refine ⟨fun hlabel => ⟨hlabel, ?_⟩, And.left⟩
    rw [interpretationFits, hplain, hlabel] at hfits
    exact of_decide_eq_true hfits
  | false =>
    have hdefault : h.defaultInterpretation ≠ .cmyk := by
      unfold defaultInterpretation
      rw [hplain]
      dsimp only
      split_ifs <;> decide
    rw [guessInterpretation_of_not_fits hfits]
    refine iff_of_false hdefault fun hcmyk => ?_
    rw [interpretationFits, hplain, hcmyk.1] at hfits
    exact of_decide_eq_false hfits hcmyk.2

end Header

end Raster
