/-
# What a conversion announces

A conversion between colour spaces replaces the bands that carry colour and keeps the
others, so the shape of its result follows from the shape of its image alone
(`converted`). That holds of an image which is only relabelled as well, and a conversion
to a space that can be written fails for nothing but its number of bands (`exists_convert`).

| what is read | colour bands | then |
| --- | --- | --- |
| `bw`, `grey16` | 1 | the target's colour bands, and all bands behind the first |
| `cmyk` | 4 | the same, behind the fourth |
| any other | 3 | the same, behind the third |

Band numbers are words, and the sum of the two counts has to be one. It is where `bandSum`, the
same sum as a number, is small enough; otherwise there is no result (`convert_overflow`).
-/
import Raster.Proofs.Image.Guess
import Raster.Proofs.Image.Operations

namespace Raster

/-- Every packed image can be unpacked, for decoding asks for the coding that it has. -/
theorem Image.exists_decode {ι : Type} (image : Image ι) : ∃ plain, image.decode = .ok plain := by
  unfold decode
  cases hcoding : image.header.coding with
  | none => exact ⟨image, rfl⟩
  | labq =>
    rw [labqToLab, expectCoding, if_pos hcoding]
    exact ⟨_, rfl⟩
  | rad =>
    rw [radToFloat, expectCoding, if_pos hcoding]
    exact ⟨_, rfl⟩

/-- All packed pixels have three bands of colour inside. -/
theorem Image.bands_of_decode {ι : Type} {image plain : Image ι}
    (hcoded : image.header.coding ≠ .none) (hdecode : image.decode = .ok plain) :
    plain.header.bands = 3 := by
  unfold decode at hdecode
  split at hdecode
  · contradiction
  · obtain ⟨_, -, hdecode⟩ := bind_eq_ok.1 hdecode
    obtain rfl := Except.ok.inj hdecode
    rfl
  · obtain ⟨_, -, hdecode⟩ := bind_eq_ok.1 hdecode
    obtain rfl := Except.ok.inj hdecode
    rfl

/-- There is nothing to unpack in an image without a coding. -/
theorem Image.decode_of_plain {ι : Type} {image : Image ι} (hplain : image.header.coding = .none) :
    image.decode = .ok image := by
  rw [decode, hplain]

namespace Colour

/-- The shape that a conversion announces, whether it transforms the pixels or only relabels
them. -/
def converted (h : Header) (target : Interpretation) (sixteen : Bool) : Header :=
  { h with
    bands := target.colourBands.getD 1 + (h.bands - (sourceSpace h).colourBands.getD 1)
    format := targetFormat target sixteen
    coding := .none
    interpretation := target }

/-- How many bands that are, as a number. -/
def bandSum (h : Header) (target : Interpretation) : Nat :=
  bandsOf target + (h.bands.toNat - bandsOf (sourceSpace h))

/-- The sum of bands that a conversion takes, and that it has to be a word. -/
theorem checkedSum_converted {h : Header} (target : Interpretation) (sixteen : Bool)
    (hplain : h.coding = .none) (hbands : 0 < h.bands) :
    checkedSum (target.colourBands.getD 1) (h.bands - (sourceSpace h).colourBands.getD 1) =
      if bandSum h target < UInt32.size then .ok (converted h target sixteen).bands
      else .error .overflow := by
  have hrest : (h.bands - (sourceSpace h).colourBands.getD 1).toNat
      = h.bands.toNat - bandsOf (sourceSpace h) :=
    UInt32.toNat_sub_of_le _ _
      (UInt32.le_iff_toNat_le.2 (Header.bandsOf_sourceSpace_le hplain hbands))
  rw [checkedSum, hrest]
  rfl

/-- Where their sum is a word, the bands of a conversion are this sum. -/
theorem toNat_bands_converted {h : Header} {target : Interpretation} {sixteen : Bool}
    (hplain : h.coding = .none) (hbands : 0 < h.bands) (hsum : bandSum h target < UInt32.size) :
    (converted h target sixteen).bands.toNat = bandSum h target := by
  have hword := checkedSum_converted target sixteen hplain hbands
  rw [if_pos hsum] at hword
  rw [← checkedSum_eq_ok.1 hword, UInt32.toNat_sub_of_le _ _
    (UInt32.le_iff_toNat_le.2 (Header.bandsOf_sourceSpace_le hplain hbands))]
  rfl

/-- An image that is in its space already has as many bands behind. -/
theorem bandSum_of_source {h : Header} {target : Interpretation} (hplain : h.coding = .none)
    (hbands : 0 < h.bands) (hsource : sourceSpace h = target) :
    bandSum h target < UInt32.size := by
  have hle := Header.bandsOf_sourceSpace_le hplain hbands
  rw [bandSum, hsource, Nat.add_sub_cancel' (hsource ▸ hle)]
  exact h.bands.toNat_lt

/-- Three bands lead to few bands in every space, so no conversion of them overflows. -/
theorem bandSum_of_three {h : Header} (hbands : h.bands = 3) (target : Interpretation) :
    bandSum h target < UInt32.size := by
  have hcolour := (bandsOf_bounds target).2
  have hrest : h.bands.toNat - bandsOf (sourceSpace h) ≤ 3 := hbands ▸ Nat.sub_le _ _
  exact Nat.lt_of_le_of_lt (Nat.add_le_add hcolour hrest) (by decide)

variable {ι : Type} {image : Image ι} {target : Interpretation} {sixteen : Bool}

/-- An image in the space and the format that are wanted is only relabelled. -/
theorem convert_relabel (hplain : image.header.coding = .none) (htarget : supports target = true)
    (hsource : sourceSpace image.header = target)
    (hformat : image.header.format = targetFormat target sixteen) :
    convert image target sixteen = .ok (image.withInterpretation target) := by
  rw [convert, Image.decode_of_plain hplain]
  refine (if_neg ?_).trans (if_pos ⟨hsource, hformat⟩)
  rw [htarget]
  decide

/-- Another image has all of its pixels transformed. -/
theorem convert_eq_map (hplain : image.header.coding = .none) (hbands : 0 < image.header.bands)
    (htarget : supports target = true)
    (hother : ¬(sourceSpace image.header = target ∧
      image.header.format = targetFormat target sixteen)) :
    convert image target sixteen = (checkedSum (target.colourBands.getD 1)
      (image.header.bands - (sourceSpace image.header).colourBands.getD 1)).map fun bands =>
        image.map { converted image.header target sixteen with bands }
          (convertPixel (sourceSpace image.header) target image.header.format
            (targetFormat target sixteen) (alphaMax target / image.header.maxAlpha)) := by
  have henough : ¬image.header.bands < (sourceSpace image.header).colourBands.getD 1 :=
    UInt32.not_lt.2 (UInt32.le_iff_toNat_le.2 (Header.bandsOf_sourceSpace_le hplain hbands))
  have hknown : ¬(!supports target) = true := by rw [htarget]; decide
  rw [convert, Image.decode_of_plain hplain]
  dsimp only [bind, Except.bind]
  rw [if_neg hknown, if_neg hother, if_neg henough]
  cases checkedSum (target.colourBands.getD 1)
    (image.header.bands - (sourceSpace image.header).colourBands.getD 1) <;> rfl

/-- The shape of an image that is only relabelled. -/
theorem header_relabel (hplain : image.header.coding = .none)
    (hsource : sourceSpace image.header = target)
    (hformat : image.header.format = targetFormat target sixteen) :
    (image.withInterpretation target).header = converted image.header target sixteen := by
  have hbands : image.header.bands
      = target.colourBands.getD 1 + (image.header.bands - target.colourBands.getD 1) := by
    rw [UInt32.add_comm, UInt32.sub_add_cancel]
  rw [converted, hsource, ← hbands, ← hformat, ← hplain]
  rfl

/-- **An uncoded image with a band can be converted to every space that can be written,** if the
bands of the result can be counted by a word. -/
theorem exists_convert (image : Image ι) (target : Interpretation) (sixteen : Bool)
    (hplain : image.header.coding = .none) (hbands : 0 < image.header.bands)
    (htarget : supports target = true) (hsum : bandSum image.header target < UInt32.size) :
    ∃ out, convert image target sixteen = .ok out ∧
      out.header = converted image.header target sixteen := by
  by_cases hsame : sourceSpace image.header = target ∧
      image.header.format = targetFormat target sixteen
  · obtain ⟨hsource, hformat⟩ := hsame
    exact ⟨_, convert_relabel hplain htarget hsource hformat,
      header_relabel hplain hsource hformat⟩
  · rw [convert_eq_map hplain hbands htarget hsame, checkedSum_converted target sixteen hplain hbands,
      if_pos hsum]
    exact ⟨_, rfl, rfl⟩

/-- Where they cannot, the sum of bands fails. -/
theorem convert_overflow (image : Image ι) (target : Interpretation) (sixteen : Bool)
    (hplain : image.header.coding = .none) (hbands : 0 < image.header.bands)
    (htarget : supports target = true) (hsum : ¬bandSum image.header target < UInt32.size) :
    convert image target sixteen = .error .overflow := by
  have hother : ¬(sourceSpace image.header = target ∧
      image.header.format = targetFormat target sixteen) := fun hsame =>
    hsum (bandSum_of_source hplain hbands hsame.1)
  rw [convert_eq_map hplain hbands htarget hother, checkedSum_converted target sixteen hplain hbands,
    if_neg hsum]
  rfl

/-- A coded image is converted as what it unpacks to. -/
theorem convert_of_decode {plain : Image ι} (hdecode : image.decode = .ok plain)
    (hplain : plain.header.coding = .none) :
    convert image target sixteen = convert plain target sixteen := by
  rw [convert, convert, hdecode, Image.decode_of_plain hplain]

end Colour

end Raster
