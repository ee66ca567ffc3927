/-
# What becomes of one pixel

Every operation transforms pixels one by one, and announces how large they will be.
On a pixel of the size that its input announces, none of them asks for a byte that is
not there, and each makes as many bytes as it says:

| transformation | of samples | makes samples |
| --- | --- | --- |
| `blend` | `n + 1` | `n` (`exists_blend`) |
| `pixelPart` | of the bands named | the same (`exists_pixelPart`) |
| `recast` | `n` | `n` of the other format (`length_recast`) |
| `unpackWith` | four bytes | three single-precision numbers (`exists_unpackWith`) |
| `packWith` | three or more | four bytes (`exists_packWith`) |
| `convertPixel` | `colourBands + k` | the target's `colourBands + k` (`exists_convertPixel`) |
-/
import Raster.Colour
import Raster.Proofs.Image.Pointwise

namespace Raster

namespace BandFormat

/-- A pixel has as many numbers as samples. -/
theorem length_readAll {f : BandFormat} {n : Nat} {pixel : Bytes}
    (hpixel : pixel.length = n * f.size) : (f.readAll pixel).length = n := by
  rw [readAll, List.length_map, Bytes.chunks_eq, List.length_map, List.length_range, hpixel,
    Nat.mul_div_cancel _ f.size_pos]

/-- And takes its format's bytes for each number written. -/
theorem length_writeAll {α : Type} (f : BandFormat) (l : List α) (sample : α → Float) :
    (l.flatMap fun x => f.write (sample x)).length = l.length * f.size :=
  Bytes.length_flatMap fun x _ => length_write f (sample x)

end BandFormat

/-! ### Points -/

namespace Image

/-- A background has a colour for every band that it is asked for. -/
theorem length_backgroundFor {n : Nat} {background : List Double} {colours : List Float}
    (h : backgroundFor n background = .ok colours) : colours.length = n := by
  unfold backgroundFor at h
  split at h
  · obtain rfl := Except.ok.inj h
    exact List.length_replicate
  · obtain rfl := Except.ok.inj h
    exact List.length_replicate
  · split at h
    · rename_i hlength
      obtain rfl := Except.ok.inj h
      rw [List.length_map, hlength]
    · cases h

/-- Blending reads one band more than it writes. -/
theorem exists_blend {f : BandFormat} (maxAlpha : Float) {background : List Float} {pixel : Bytes}
    (hpixel : pixel.length = (background.length + 1) * f.size) :
    ∃ out, blend f maxAlpha background pixel = some out ∧
      out.length = background.length * f.size := by
  have hsamples := BandFormat.length_readAll hpixel
  have halpha := List.getElem?_eq_getElem (l := f.readAll pixel) (i := background.length)
    (by omega)
  refine ⟨_, by rw [blend, halpha]; rfl, ?_⟩
  rw [BandFormat.length_writeAll, List.length_zip, hsamples, Nat.min_eq_right (Nat.le_succ _)]

/-- A part of a pixel that ends inside it can be cut out. -/
theorem exists_pixelPart {start n size : Nat} {pixel : Bytes} (hpixel : pixel.length = size)
    (hend : start + n ≤ size) : ∃ out, pixelPart start n pixel = some out ∧ out.length = n := by
  have hslice : pixelPart start n pixel = some ((pixel.drop start).take n) := by
    rw [pixelPart, Bytes.slice?_eq, if_pos (hpixel ▸ hend)]
  exact ⟨_, hslice, Bytes.length_of_slice? hslice⟩

/-- A cast writes a sample for each sample. -/
theorem length_recast {source target : BandFormat} {n shift : Nat} {pixel : Bytes}
    (hpixel : pixel.length = n * source.size) :
    (recast source target shift pixel).length = n * target.size := by
  rw [recast, BandFormat.length_writeAll, BandFormat.length_readAll hpixel]

end Image

/-! ### Packed pixels -/

namespace Packed

/-- Radiance unpacks to three numbers. -/
theorem length_unpackRadiance (p₀ p₁ p₂ p₃ : UInt8) : (unpackRadiance p₀ p₁ p₂ p₃).length = 3 := by
  unfold unpackRadiance
  split <;> rfl

/-- And takes four bytes. -/
theorem length_packRadiance (r g b : Float) : (packRadiance r g b).length = 4 := by
  simp only [packRadiance]
  split <;> rfl

/-- Four bytes can be unpacked. -/
theorem exists_unpackWith {unpack : UInt8 → UInt8 → UInt8 → UInt8 → List Float}
    (hunpack : ∀ p₀ p₁ p₂ p₃, (unpack p₀ p₁ p₂ p₃).length = 3) {pixel : Bytes}
    (hpixel : pixel.length = 4) :
    ∃ out, unpackWith unpack pixel = some out ∧ out.length = 3 * BandFormat.float.size := by
  obtain ⟨p₀, p₁, p₂, p₃, rfl⟩ := List.length_eq_four.1 hpixel
  exact ⟨_, rfl, by rw [← hunpack p₀ p₁ p₂ p₃]; exact BandFormat.length_writeAll .float _ id⟩

/-- Three bands or more can be packed. -/
theorem exists_packWith {f : BandFormat} {pack : Float → Float → Float → Bytes}
    (hpack : ∀ a b c, (pack a b c).length = 4) {n : Nat} (hn : 3 ≤ n) {pixel : Bytes}
    (hpixel : pixel.length = n * f.size) : ∃ out, packWith f pack pixel = some out ∧
      out.length = 4 := by
  have hsamples := BandFormat.length_readAll hpixel
  unfold packWith
  match hread : f.readAll pixel with
  | a :: b :: c :: _ => exact ⟨_, rfl, hpack a b c⟩
  | [] | [_] | [_, _] =>
    rw [hread] at hsamples
    simp only [List.length_cons, List.length_nil] at hsamples
    omega

end Packed

/-! ### Colours -/

namespace Colour

/-- How many bands of a supported space carry colour. -/
def bandsOf (space : Interpretation) : Nat := (space.colourBands.getD 1).toNat

/-- Every space has one to four bands of colour. -/
theorem bandsOf_bounds (space : Interpretation) : 1 ≤ bandsOf space ∧ bandsOf space ≤ 4 := by
  cases space <;> decide

/-- Reading a supported space takes its colour bands and leaves the others. -/
theorem exists_toLinear {space : Interpretation} (hspace : supports space = true) (scale : Float)
    {v : List Float} (hbands : bandsOf space ≤ v.length) :
    ∃ rgb rest, toLinear space scale v = some (rgb, rest) ∧
      rest.length = v.length - bandsOf space := by
  cases space with
  | bw | grey16 =>
    have hbands : 1 ≤ v.length := hbands
    match v with
    | a :: rest => exact ⟨_, rest, rfl, rfl⟩
    | [] => cases hbands
  | srgb | rgb | rgb16 | scrgb | xyz | lab =>
    have hbands : 3 ≤ v.length := hbands
    match v with
    | a :: b :: c :: rest => exact ⟨_, rest, rfl, rfl⟩
    | [] | [_] | [_, _] => simp at hbands
  | cmyk =>
    have hbands : 4 ≤ v.length := hbands
    match v with
    | c :: m :: y :: k :: rest => exact ⟨_, rest, rfl, rfl⟩
    | [] | [_] | [_, _] | [_, _, _] => simp at hbands
  | multiband | histogram | fourier | matrix | labq | labs | lch | cmc | yxy | hsv => cases hspace

/-- As many numbers come out as the space has bands. -/
theorem length_ofLinear {space : Interpretation} (hspace : supports space = true) (scale : Float)
    (rgb : Triple) : (ofLinear space scale rgb).length = bandsOf space := by
  cases space with
  | cmyk =>
    simp only [ofLinear]
    split <;> rfl
  | bw | grey16 | srgb | rgb | rgb16 | scrgb | xyz | lab => rfl
  | multiband | histogram | fourier | matrix | labq | labs | lch | cmc | yxy | hsv => cases hspace

/-- The space that samples are read in is a supported one. -/
theorem supports_sourceSpace (h : Header) : supports (sourceSpace h) = true := by
  simp only [sourceSpace]
  split
  · assumption
  · split <;> rfl

/-- **A pixel can be converted between supported spaces** if it has the bands of the first one;
those beyond come along. -/
theorem exists_convertPixel {source target : Interpretation} (hsource : supports source = true)
    (htarget : supports target = true) {f out : BandFormat} (alphaScale : Float) {n : Nat}
    (hn : bandsOf source ≤ n) {pixel : Bytes} (hpixel : pixel.length = n * f.size) :
    ∃ bytes, convertPixel source target f out alphaScale pixel = some bytes ∧
      bytes.length = (bandsOf target + (n - bandsOf source)) * out.size := by
  have hsamples := BandFormat.length_readAll hpixel
  obtain ⟨rgb, rest, hlinear, hrest⟩ :=
    exists_toLinear hsource (white source f) (hsamples ▸ hn)
  refine ⟨_, by rw [convertPixel, hlinear]; rfl, ?_⟩
  rw [BandFormat.length_writeAll, List.length_append, length_ofLinear htarget, List.length_map,
    hrest, hsamples]

end Colour

end Raster
