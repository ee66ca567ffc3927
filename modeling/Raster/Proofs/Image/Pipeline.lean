/-
# Lazy pipelines

An image is well formed where its rectangles are windows of one array, it has a band
at least and its pixels have four `uchar` bands where they are packed. Each operation
makes a well-formed image of one (`WellFormed.apply`), so a pipeline of them does
(`Derives.wellFormed`); and then it does not matter in which pieces the pixels are
fetched (`fetch_derived`).

| step | needs of its input |
| --- | --- |
| `flatten`, `extractBands`, `cast` | samples that are not packed |
| the others | nothing |

No step reaches past a pixel: one whose band numbers no word can count does not succeed.
-/
import Raster.Proofs.Image.Pixel
import Raster.Proofs.Normalize

namespace Raster

namespace Image

/-- Rectangles are windows of one array; there is a band, and packed pixels have four bytes. -/
structure WellFormed (image : Image Empty) (files : Files) : Prop where
  coherent : ∃ pixels, image.Coherent files pixels
  banded : 0 < image.header.bands.toNat
  packed : image.header.coding ≠ .none →
    image.header.bands = 4 ∧ image.header.format = .uchar

namespace WellFormed

variable {image out : Image Empty} {files : Files}

/-- A packed pixel has four bytes. -/
theorem length_packed (hformed : image.WellFormed files) (hcoding : image.header.coding ≠ .none) :
    image.header.pixelBytes = 4 := by
  obtain ⟨hbands, hformat⟩ := hformed.packed hcoding
  rw [Header.pixelBytes, hbands, hformat]
  rfl

/-- A transformation that makes pixels of the announced size, which are not packed. -/
theorem map (hformed : image.WellFormed files) {header : Header} {pixel : Bytes → Option Bytes}
    (hwidth : header.width = image.header.width) (hheight : header.height = image.header.height)
    (hbands : 0 < header.bands.toNat)
    (hpacked : header.coding ≠ .none → header.bands = 4 ∧ header.format = .uchar)
    (hpixel : ∀ bytes : Bytes, bytes.length = image.header.pixelBytes →
      ∃ out, pixel bytes = some out ∧ out.length = header.pixelBytes) :
    (image.map header pixel).WellFormed files := by
  obtain ⟨pixels, hcoherent⟩ := hformed.coherent
  exact ⟨⟨_, hcoherent.map hformed.banded hwidth hheight hpixel⟩, hbands, hpacked⟩

/-- Relabelling the colours leaves the bytes alone. -/
theorem withInterpretation (hformed : image.WellFormed files) (interpretation : Interpretation) :
    (image.withInterpretation interpretation).WellFormed files := by
  obtain ⟨pixels, hcoherent⟩ := hformed.coherent
  exact ⟨⟨pixels, hcoherent.shows, hcoherent.length⟩, hformed.banded, hformed.packed⟩

/-! ### Points -/

/-- Flattening writes one pixel of the new shape for each pixel, as all of these operations do. -/
theorem flatten (hformed : image.WellFormed files) (hplain : image.header.coding = .none)
    {background : List Double} (hok : image.flatten background = .ok out) :
    out.WellFormed files := by
  simp only [Image.flatten] at hok
  split at hok
  · obtain rfl := Except.ok.inj hok
    exact hformed
  · rename_i hbands
    obtain ⟨colours, hcolours, hok⟩ := bind_eq_ok.1 hok
    obtain rfl := Except.ok.inj hok
    have htwo : 2 ≤ image.header.bands.toNat :=
      UInt32.le_iff_toNat_le.1 (UInt32.not_lt.1 hbands)
    have hone : (image.header.bands - 1).toNat = image.header.bands.toNat - 1 :=
      UInt32.toNat_sub_of_le _ _ (UInt32.le_iff_toNat_le.2 (Nat.le_of_succ_le htwo))
    have hlength := length_backgroundFor hcolours
    refine hformed.map rfl rfl (by simp only [hone]; omega) (fun h => absurd hplain h) ?_
    intro bytes hbytes
    have hpixel : bytes.length = (colours.length + 1) * image.header.format.size := by
      rw [hbytes, hlength, hone, Nat.sub_add_cancel (by omega), Header.pixelBytes]
    obtain ⟨blended, hblended, hsize⟩ := exists_blend image.header.maxAlpha hpixel
    exact ⟨blended, hblended, by rw [hsize, hlength]; rfl⟩

/-- The bands that are cut out are there, for extraction was not refused. -/
theorem extractBands (hformed : image.WellFormed files) (hplain : image.header.coding = .none)
    {first n : UInt32} (hok : image.extractBands first n = .ok out) : out.WellFormed files := by
  obtain ⟨hsome, hend, rfl⟩ := extractBands_eq_ok.1 hok
  have hpositive : 0 < n.toNat := Nat.pos_of_ne_zero fun h => hsome (UInt32.toNat_inj.1 h)
  rw [extracted]
  split
  · exact hformed
  · refine hformed.map rfl rfl hpositive (fun h => absurd hplain h) ?_
    intro bytes hbytes
    refine exists_pixelPart hbytes ?_
    rw [← Nat.add_mul]
    exact Nat.mul_le_mul_right _ hend

/-- A cast writes as many samples as it reads. -/
theorem cast (hformed : image.WellFormed files) (hplain : image.header.coding = .none)
    (target : BandFormat) (shift : Bool) : (image.cast target shift).WellFormed files := by
  simp only [Image.cast]
  split
  · exact hformed
  · refine hformed.map rfl rfl hformed.banded (fun h => absurd hplain h) ?_
    exact fun bytes hbytes => ⟨_, rfl, length_recast hbytes⟩

/-! ### Codings -/

/-- Unpacking makes three floats of four bytes. -/
theorem labqToLab (hformed : image.WellFormed files) (hok : image.labqToLab = .ok out) :
    out.WellFormed files := by
  obtain ⟨_, hexpect, hok⟩ := bind_eq_ok.1 hok
  obtain rfl := Except.ok.inj hok
  have hfour := hformed.length_packed (coding_of_expectCoding hexpect ▸ by decide)
  refine hformed.map rfl rfl (show 0 < 3 by decide) (fun h => absurd rfl h) ?_
  exact fun bytes hbytes => Packed.exists_unpackWith (fun _ _ _ _ => rfl) (hbytes.trans hfour)

/-- So does unpacking radiance. -/
theorem radToFloat (hformed : image.WellFormed files) (hok : image.radToFloat = .ok out) :
    out.WellFormed files := by
  obtain ⟨_, hexpect, hok⟩ := bind_eq_ok.1 hok
  obtain rfl := Except.ok.inj hok
  have hfour := hformed.length_packed (coding_of_expectCoding hexpect ▸ by decide)
  refine hformed.map rfl rfl (show 0 < 3 by decide) (fun h => absurd rfl h) ?_
  exact fun bytes hbytes =>
    Packed.exists_unpackWith Packed.length_unpackRadiance (hbytes.trans hfour)

/-- Either may be asked for by its coding. -/
theorem decode (hformed : image.WellFormed files) (hok : image.decode = .ok out) :
    out.WellFormed files := by
  unfold Image.decode at hok
  split at hok
  · obtain rfl := Except.ok.inj hok
    exact hformed
  · exact hformed.labqToLab hok
  · exact hformed.radToFloat hok

/-- Packing reads three bands, which it has checked. -/
theorem labToLabq (hformed : image.WellFormed files) (hok : image.labToLabq = .ok out) :
    out.WellFormed files := by
  obtain ⟨_, -, hok⟩ := bind_eq_ok.1 hok
  dsimp only at hok
  split at hok
  · cases hok
  · rename_i hbands
    obtain rfl := Except.ok.inj hok
    have hthree : 3 ≤ image.header.bands.toNat :=
      UInt32.le_iff_toNat_le.1 (UInt32.not_lt.1 hbands)
    refine hformed.map rfl rfl (show 0 < 4 by decide) (fun _ => ⟨rfl, rfl⟩) ?_
    exact fun bytes hbytes => Packed.exists_packWith (fun _ _ _ => rfl) hthree hbytes

/-- So does packing as radiance. -/
theorem floatToRad (hformed : image.WellFormed files) (hok : image.floatToRad = .ok out) :
    out.WellFormed files := by
  obtain ⟨_, hexpect, hok⟩ := bind_eq_ok.1 hok
  split at hok
  · cases hok
  · rename_i hbands
    obtain rfl := Except.ok.inj hok
    have hcast := hformed.cast (coding_of_expectCoding hexpect) .float false
    have hthree : 3 ≤ (image.cast .float false).header.bands.toNat := by
      rw [bands_cast]
      exact UInt32.le_iff_toNat_le.1 (UInt32.not_lt.1 hbands)
    refine hcast.map rfl rfl (show 0 < 4 by decide) (fun _ => ⟨rfl, rfl⟩) ?_
    exact fun bytes hbytes => Packed.exists_packWith Packed.length_packRadiance hthree hbytes

/-! ### Colours -/

/-- A conversion keeps the bands behind the colour bands, or all of them where it only relabels. -/
theorem convert (hformed : image.WellFormed files) {target : Interpretation} {sixteen : Bool}
    (hok : Colour.convert image target sixteen = .ok out) : out.WellFormed files := by
  obtain ⟨htarget, hconverted⟩ := Colour.converted_of_convert hok
  cases hconverted with
  | relabelled hplain => exact (hformed.decode hplain).withInterpretation target
  | @transformed plain bands hplain henough hbands =>
    have hsource := Colour.supports_sourceSpace plain.header
    have henough := UInt32.le_iff_toNat_le.1 henough
    have hcount : bands.toNat = Colour.bandsOf target +
        (plain.header.bands.toNat - Colour.bandsOf (Colour.sourceSpace plain.header)) := by
      rw [← checkedSum_eq_ok.1 hbands,
        UInt32.toNat_sub_of_le _ _ (UInt32.le_iff_toNat_le.2 henough)]
      rfl
    have hpositive : 0 < bands.toNat :=
      hcount ▸ Nat.add_pos_left (Colour.bandsOf_bounds target).1 _
    refine (hformed.decode hplain).map rfl rfl hpositive (fun h => absurd rfl h) ?_
    intro bytes hbytes
    obtain ⟨converted, hconverted, hsize⟩ := Colour.exists_convertPixel hsource htarget
      (Colour.alphaMax target / plain.header.maxAlpha) henough hbytes
    exact ⟨converted, hconverted, by rw [hsize, Header.pixelBytes, hcount]⟩

/-- The export of the built-in engine is a conversion. -/
theorem exportProfile (hformed : image.WellFormed files) {depth : UInt32}
    (hok : Colour.basic.exportProfile image depth = .ok out) : out.WellFormed files := by
  simp only [Colour.basic] at hok
  split at hok
  · exact hformed.convert hok
  · cases hok

/-! ### Fitting an image to a saver -/

section Saveable

variable {saveable : Saveable} {codings : CodingSet}

/-- So is bringing an image to a saver's first model. -/
theorem firstModel (hformed : image.WellFormed files) {sixteen : Bool}
    (hok : Normalize.firstModel sixteen saveable Colour.basic image = .ok out) :
    out.WellFormed files := by
  unfold Normalize.firstModel at hok
  split at hok
  · exact hformed.convert hok
  · split at hok
    · exact hformed.exportProfile hok
    · split at hok
      · exact hformed.convert hok
      · cases hok

/-- Which may be done after an import. -/
theorem fitPlain (hformed : image.WellFormed files) {sixteen : Bool}
    (hok : Normalize.fitPlain sixteen saveable Colour.basic image = .ok out) :
    out.WellFormed files := by
  unfold Normalize.fitPlain at hok
  split at hok
  · obtain rfl := Except.ok.inj hok
    exact hformed
  · split at hok
    · split at hok
      · obtain rfl := Except.ok.inj hok
        exact hformed
      · obtain ⟨imported, himported, hok⟩ := bind_eq_ok.1 hok
        exact (hformed.convert himported).firstModel hok
    · exact hformed.firstModel hok

/-- Or after unpacking. -/
theorem unpack (hformed : image.WellFormed files)
    (hok : Normalize.unpack image Colour.basic = .ok out) : out.WellFormed files := by
  unfold Normalize.unpack at hok
  split at hok
  · exact hformed.convert hok
  · exact hformed.radToFloat hok
  · obtain rfl := Except.ok.inj hok
    exact hformed

/-- So the whole colour step makes well-formed images. -/
theorem fitColour (hformed : image.WellFormed files) (hany : saveable.any = false)
    (hok : Normalize.fitColour image saveable Colour.basic = .ok out) : out.WellFormed files := by
  rw [Normalize.fitColour_eq hany] at hok
  obtain ⟨plain, hunpack, hok⟩ := bind_eq_ok.1 hok
  exact (hformed.unpack hunpack).fitPlain hok

/-- The alpha step flattens what has no coding. -/
theorem dropAlpha (hformed : image.WellFormed files) {background : List Double}
    (hok : Normalize.dropAlpha saveable background image = .ok out) : out.WellFormed files := by
  unfold Normalize.dropAlpha at hok
  split at hok
  · rename_i halpha
    exact hformed.flatten halpha.1 hok
  · obtain rfl := Except.ok.inj hok
    exact hformed

/-- The next one cuts bands out of it. -/
theorem dropBands (hformed : image.WellFormed files)
    (hplain : saveable.any = true ∨ image.header.coding = .none)
    (hok : Normalize.dropBands saveable image = .ok out) : out.WellFormed files := by
  rcases hplain with hany | hplain
  · obtain rfl := Normalize.eq_of_dropBands_any hany hok
    exact hformed
  · obtain ⟨most, -, hok⟩ := bind_eq_ok.1 hok
    split at hok
    · exact hformed.extractBands hplain hok
    · obtain rfl := Except.ok.inj hok
      exact hformed

/-- The format step casts it. -/
theorem promote (hformed : image.WellFormed files) (table : FormatTable) :
    (Normalize.promote table image).WellFormed files := by
  unfold Normalize.promote
  split
  · rename_i hplain
    exact hformed.cast hplain _ _
  · exact hformed

/-- And the last one packs or unpacks. -/
theorem recode (hformed : image.WellFormed files)
    (hok : Normalize.recode image codings = .ok out) : out.WellFormed files := by
  unfold Normalize.recode at hok
  split at hok
  · obtain rfl := Except.ok.inj hok
    exact hformed
  · obtain ⟨plain, hdecode, hok⟩ := bind_eq_ok.1 hok
    have hplain := hformed.decode hdecode
    split at hok
    · exact hplain.labToLabq hok
    · split at hok
      · exact hplain.floatToRad hok
      · obtain rfl := Except.ok.inj hok
        exact hplain

/-- **What a saver gets of a well-formed image is well formed.** -/
theorem convertSaveable (hformed : image.WellFormed files) {table : FormatTable}
    {background : List Double}
    (hok : Normalize.convertSaveable image saveable table codings background Colour.basic = .ok out) :
    out.WellFormed files := by
  by_cases hcoded : image.header.coding ≠ .none ∧ codings.accepts image.header.coding = true
  · rw [Normalize.convertSaveable, if_pos hcoded] at hok
    obtain rfl := Except.ok.inj hok
    exact hformed
  by_cases hplain : image.header.coding = .none ∧ saveable.any = true ∧
      table image.header.format = image.header.format
  · rw [Normalize.convertSaveable, if_neg hcoded, if_pos hplain] at hok
    obtain rfl := Except.ok.inj hok
    exact hformed
  rw [Normalize.convertSaveable_eq hcoded hplain] at hok
  obtain ⟨fitted, hfitted, hok⟩ := bind_eq_ok.1 hok
  obtain ⟨flat, hflat, hok⟩ := bind_eq_ok.1 hok
  obtain ⟨trimmed, htrimmed, hok⟩ := bind_eq_ok.1 hok
  have hcolour : fitted.WellFormed files ∧
      (saveable.any = true ∨ fitted.header.coding = .none) := by
    cases hany : saveable.any with
    | true =>
      rw [Normalize.fitColour_any hany] at hfitted
      obtain rfl := Except.ok.inj hfitted
      exact ⟨hformed, .inl rfl⟩
    | false =>
      exact ⟨hformed.fitColour hany hfitted,
        .inr (Normalize.keeps_fitColour Colour.keeps_basic hany hfitted).coding⟩
  have hcoding : saveable.any = true ∨ flat.header.coding = .none := by
    rw [(Normalize.keeps_dropAlpha hflat).coding]
    exact hcolour.2
  exact (((hcolour.1.dropAlpha hflat).dropBands hcoding htrimmed).promote table).recode hok

end Saveable

end WellFormed

/-! ### Pipelines -/

/-- A lazy operation on the pixels of an image. -/
inductive PixelStep where
  | flatten (background : List Double)
  | extractBands (first n : UInt32)
  | cast (target : BandFormat) (shift : Bool)
  | labqToLab
  | labToLabq
  | radToFloat
  | floatToRad
  | decode
  | withInterpretation (interpretation : Interpretation)
  | colourspace (target : Interpretation)
  | importProfile (embedded : Bool)
  | exportProfile (depth : UInt32)
  | convertSaveable (saveable : Saveable) (table : FormatTable) (codings : CodingSet)
      (background : List Double)

namespace PixelStep

/-- The image after a step, its colours converted by an engine. -/
def perform {ι : Type} (colour : ColourEngine ι) (image : Image ι) :
    PixelStep → Except Error (Image ι)
  | flatten background => image.flatten background
  | extractBands first n => image.extractBands first n
  | cast target shift => .ok (image.cast target shift)
  | labqToLab => image.labqToLab
  | labToLabq => image.labToLabq
  | radToFloat => image.radToFloat
  | floatToRad => image.floatToRad
  | decode => image.decode
  | withInterpretation interpretation => .ok (image.withInterpretation interpretation)
  | colourspace target => colour.colourspace image target
  | importProfile embedded => colour.importProfile image embedded
  | exportProfile depth => colour.exportProfile image depth
  | convertSaveable saveable table codings background =>
    Normalize.convertSaveable image saveable table codings background colour

/-- The image after a step, its colours converted by formula. -/
def apply (image : Image Empty) (step : PixelStep) : Except Error (Image Empty) :=
  step.perform Colour.basic image

/-- Samples are read only where they are not packed. -/
def Admits (h : Header) : PixelStep → Prop
  | flatten _ | extractBands _ _ | cast _ _ => h.coding = .none
  | _ => True

instance (h : Header) (step : PixelStep) : Decidable (step.Admits h) :=
  match step with
  | flatten _ | extractBands _ _ | cast _ _ => inferInstanceAs (Decidable (_ = _))
  | labqToLab | labToLabq | radToFloat | floatToRad | decode | withInterpretation _ | colourspace _
  | importProfile _ | exportProfile _ | convertSaveable .. => inferInstanceAs (Decidable True)

end PixelStep

variable {image out : Image Empty} {files : Files}

/-- **A step makes a well-formed image of one.** -/
theorem WellFormed.apply (hformed : image.WellFormed files) {step : PixelStep}
    (hadmits : step.Admits image.header) (hok : step.apply image = .ok out) :
    out.WellFormed files := by
  cases step with
  | flatten background => exact hformed.flatten hadmits hok
  | extractBands first n => exact hformed.extractBands hadmits hok
  | cast target shift =>
    obtain rfl := Except.ok.inj hok
    exact hformed.cast hadmits target shift
  | labqToLab => exact hformed.labqToLab hok
  | labToLabq => exact hformed.labToLabq hok
  | radToFloat => exact hformed.radToFloat hok
  | floatToRad => exact hformed.floatToRad hok
  | decode => exact hformed.decode hok
  | withInterpretation interpretation =>
    obtain rfl := Except.ok.inj hok
    exact hformed.withInterpretation interpretation
  | colourspace target => exact hformed.convert hok
  | importProfile embedded => exact hformed.convert hok
  | exportProfile depth => exact hformed.exportProfile hok
  | convertSaveable saveable table codings background => exact hformed.convertSaveable hok

end Image

end Raster
