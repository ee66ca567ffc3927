/-
# The shape of packed pixels

Packed pixels have four `uchar` bands (`Header.CodingFits`), and the unpackers rely on it: they
take four bytes of each pixel (`mapPixels_unpackWith`). Operations that pack announce this shape,
and those that unpack or convert colours leave no coding. But three operations work on samples and
keep the coding that they find, whether or not there are samples:

| step | leaves packed pixels their shape |
| --- | --- |
| `flatten` | never: a band is dropped |
| `extractBands first n` | if `n = 4` |
| `cast target` | if `target` is `uchar` |
| every other | always |

So the images of a run keep the shape if, and only if, no step of it takes it away
(`codingFits_performAll_iff`).
-/
import Raster.Proofs.Image.Pipeline

namespace Raster

/-- Whether the coding can belong to the shape: packed pixels have four `uchar` bands. -/
def Header.CodingFits (h : Header) : Prop :=
  h.coding ≠ .none → h.bands = 4 ∧ h.format = .uchar

instance (h : Header) : Decidable h.CodingFits := inferInstanceAs (Decidable (_ → _))

/-- Without a coding there is no shape to fit. -/
theorem Header.CodingFits.of_plain {h : Header} (hplain : h.coding = .none) : h.CodingFits :=
  fun hcoded => absurd hplain hcoded

/-- A packed pixel has four bytes. -/
theorem Header.CodingFits.pixelSize {h : Header} (hshape : h.CodingFits)
    (hcoded : h.coding ≠ .none) : h.pixelSize = 4 := by
  obtain ⟨hbands, hformat⟩ := hshape hcoded
  rw [Header.pixelSize, hbands, hformat]
  rfl

/-- **Packed pixels of the right shape are unpacked,** whatever their bytes are. -/
theorem Source.mapPixels_unpackWith {h : Header} (hshape : h.CodingFits)
    (hcoded : h.coding ≠ .none) {unpack : UInt8 → UInt8 → UInt8 → UInt8 → List Float}
    (hunpack : ∀ p₀ p₁ p₂ p₃, (unpack p₀ p₁ p₂ p₃).length = 3) (bytes : Bytes) :
    ∃ out, mapPixels h (Packed.unpackWith unpack) bytes = .ok out := by
  have hsize := hshape.pixelSize hcoded
  have hpixel : ∀ pixel ∈ bytes.chunks h.pixelSize.toNat,
      Packed.unpackWith unpack pixel = some ((Packed.unpackWith unpack pixel).getD []) := by
    intro pixel hpixel
    have hfour : pixel.length = 4 := by
      rw [Bytes.length_of_mem_chunks hpixel, hsize]
      rfl
    obtain ⟨out, hout, -⟩ := Packed.exists_unpackWith hunpack hfour
    rw [hout, Option.getD_some]
  have hpositive : h.pixelSize ≠ 0 := by
    rw [hsize]
    decide
  rw [mapPixels, if_neg hpositive, mapM_eq_some hpixel]
  exact ⟨_, rfl⟩

variable {ι : Type} {image out : Image ι} {colour : ColourEngine ι}

namespace Image

/-! ### Operations on samples -/

/-- Flattening keeps the coding and takes a band, so it may only be done to what is not packed. -/
theorem codingFits_flatten_iff (hshape : image.header.CodingFits) {background : List Double}
    (hok : image.flatten background = .ok out) :
    out.header.CodingFits ↔ image.header.coding = .none := by
  have hcoding := (keeps_flatten hok).coding
  constructor
  · intro hout
    by_contra hcoded
    have hbands := (hshape hcoded).1
    have hfour := (hout (hcoding ▸ hcoded)).1
    simp only [flatten, hbands] at hok
    obtain ⟨colours, -, hok⟩ := bind_eq_ok.1 hok
    obtain rfl := Except.ok.inj hok
    -- Of four bands the last one is dropped.
    have hthree : (4 - 1 : UInt32) = 4 := hfour
    exact absurd hthree (by decide)
  · exact fun hplain => .of_plain (hcoding.trans hplain)

/-- Extraction keeps the coding too, which is right for all four bands only. -/
theorem codingFits_extractBands_iff (hshape : image.header.CodingFits) {first n : UInt32}
    (hok : image.extractBands first n = .ok out) :
    out.header.CodingFits ↔ image.header.coding = .none ∨ n = 4 := by
  have hcoding := (keeps_extractBands hok).coding
  obtain ⟨-, -, rfl⟩ := extractBands_eq_ok.1 hok
  rw [Header.CodingFits, hcoding, image.header_extracted first n, or_iff_not_imp_left]
  exact forall_congr' fun hcoded => and_iff_left (hshape hcoded).2

/-- And a cast, which is right for a cast to what it is. -/
theorem codingFits_cast_iff (hshape : image.header.CodingFits) (target : BandFormat)
    (shift : Bool) : (image.cast target shift).header.CodingFits ↔
      image.header.coding = .none ∨ target = .uchar := by
  rw [Header.CodingFits, (keeps_cast image target shift).coding, bands_cast, format_cast,
    or_iff_not_imp_left]
  exact forall_congr' fun hcoded => and_iff_right (hshape hcoded).1

/-! ### Codings -/

/-- Packing makes the shape that its coding asks for. -/
theorem codingFits_labToLabq (hok : image.labToLabq = .ok out) : out.header.CodingFits := by
  obtain ⟨_, -, hok⟩ := bind_eq_ok.1 hok
  dsimp only at hok
  split at hok
  · cases hok
  · obtain rfl := Except.ok.inj hok
    exact fun _ => ⟨rfl, rfl⟩

/-- So does packing as radiance. -/
theorem codingFits_floatToRad (hok : image.floatToRad = .ok out) : out.header.CodingFits := by
  obtain ⟨_, -, hok⟩ := bind_eq_ok.1 hok
  split at hok
  · cases hok
  · obtain rfl := Except.ok.inj hok
    exact fun _ => ⟨rfl, rfl⟩

end Image

/-! ### Fitting an image to a saver -/

namespace Normalize

variable {saveable : Saveable} {codings : CodingSet}

/-- The alpha step is for what is not packed. -/
theorem codingFits_dropAlpha (hshape : image.header.CodingFits) {background : List Double}
    (hok : dropAlpha saveable background image = .ok out) : out.header.CodingFits := by
  unfold dropAlpha at hok
  split at hok
  · rename_i halpha
    exact (Image.codingFits_flatten_iff hshape hok).2 halpha.1
  · obtain rfl := Except.ok.inj hok
    exact hshape

/-- Dropping bands would not, but packed pixels are only met under a saver of anything, which sets
no limit. -/
theorem codingFits_dropBands (hshape : image.header.CodingFits)
    (hplain : saveable.any = true ∨ image.header.coding = .none)
    (hok : dropBands saveable image = .ok out) : out.header.CodingFits := by
  rcases hplain with hany | hplain
  · obtain rfl := eq_of_dropBands_any hany hok
    exact hshape
  · exact .of_plain ((keeps_dropBands hok).coding.trans hplain)

/-- The format step leaves packed pixels alone. -/
theorem codingFits_promote (hshape : image.header.CodingFits) (table : FormatTable) :
    (promote table image).header.CodingFits := by
  unfold promote
  split
  · rename_i hplain
    exact (Image.codingFits_cast_iff hshape _ _).2 (.inl hplain)
  · exact hshape

/-- And the last step packs, unpacks, or leaves what fits. -/
theorem codingFits_recode (hshape : image.header.CodingFits)
    (hok : recode image codings = .ok out) : out.header.CodingFits := by
  unfold recode at hok
  split at hok
  · obtain rfl := Except.ok.inj hok
    exact hshape
  · obtain ⟨plain, hplain, hok⟩ := bind_eq_ok.1 hok
    split at hok
    · exact Image.codingFits_labToLabq hok
    · split at hok
      · exact Image.codingFits_floatToRad hok
      · obtain rfl := Except.ok.inj hok
        exact .of_plain (Image.keeps_decode hplain).coding

/-- **What a saver gets has the shape,** whatever engine converts the colours: samples are changed
only where there are samples. -/
theorem codingFits_convertSaveable (hcolour : colour.Keeps) (hshape : image.header.CodingFits)
    {table : FormatTable} {background : List Double}
    (hok : convertSaveable image saveable table codings background colour = .ok out) :
    out.header.CodingFits := by
  by_cases hcoded : image.header.coding ≠ .none ∧ codings.accepts image.header.coding = true
  · rw [convertSaveable, if_pos hcoded] at hok
    obtain rfl := Except.ok.inj hok
    exact hshape
  by_cases hplain : image.header.coding = .none ∧ saveable.any = true ∧
      table image.header.format = image.header.format
  · rw [convertSaveable, if_neg hcoded, if_pos hplain] at hok
    obtain rfl := Except.ok.inj hok
    exact hshape
  rw [convertSaveable_eq hcoded hplain] at hok
  obtain ⟨fitted, hfitted, hok⟩ := bind_eq_ok.1 hok
  obtain ⟨flat, hflat, hok⟩ := bind_eq_ok.1 hok
  obtain ⟨trimmed, htrimmed, hok⟩ := bind_eq_ok.1 hok
  -- A saver of any colour model leaves a coding in place up to the last step, others remove it.
  have hcolour : fitted.header.CodingFits ∧
      (saveable.any = true ∨ fitted.header.coding = .none) := by
    cases hany : saveable.any with
    | true =>
      rw [fitColour_any hany] at hfitted
      obtain rfl := Except.ok.inj hfitted
      exact ⟨hshape, .inl rfl⟩
    | false =>
      have hnone := (keeps_fitColour hcolour hany hfitted).coding
      exact ⟨.of_plain hnone, .inr hnone⟩
  have hcoding : saveable.any = true ∨ flat.header.coding = .none := by
    rw [(keeps_dropAlpha hflat).coding]
    exact hcolour.2
  have htrimmed := codingFits_dropBands (codingFits_dropAlpha hcolour.1 hflat) hcoding htrimmed
  exact codingFits_recode (codingFits_promote htrimmed table) hok

end Normalize

/-! ### Runs -/

namespace Image

namespace PixelStep

/-- Whether a step leaves packed pixels their shape: it does not take samples for what they are
not. -/
def Respects (h : Header) : PixelStep → Prop
  | flatten _ => h.coding = .none
  | extractBands _ n => h.coding = .none ∨ n = 4
  | cast target _ => h.coding = .none ∨ target = .uchar
  | _ => True

/-- **What one step does to the shape.** -/
theorem codingFits_perform_iff (hcolour : colour.Keeps) (hshape : image.header.CodingFits)
    {step : PixelStep} (hok : step.perform colour image = .ok out) :
    out.header.CodingFits ↔ step.Respects image.header := by
  cases step with
  | flatten background => exact codingFits_flatten_iff hshape hok
  | extractBands first n => exact codingFits_extractBands_iff hshape hok
  | cast target shift =>
    obtain rfl := Except.ok.inj hok
    exact codingFits_cast_iff hshape target shift
  | labqToLab => exact iff_true_intro (.of_plain (keeps_labqToLab hok).coding)
  | labToLabq => exact iff_true_intro (codingFits_labToLabq hok)
  | radToFloat => exact iff_true_intro (.of_plain (keeps_radToFloat hok).coding)
  | floatToRad => exact iff_true_intro (codingFits_floatToRad hok)
  | decode => exact iff_true_intro (.of_plain (keeps_decode hok).coding)
  | withInterpretation interpretation =>
    obtain rfl := Except.ok.inj hok
    exact iff_true_intro hshape
  | colourspace target => exact iff_true_intro (.of_plain (hcolour.colourspace hok).coding)
  | importProfile embedded => exact iff_true_intro (.of_plain (hcolour.importProfile hok).coding)
  | exportProfile depth => exact iff_true_intro (.of_plain (hcolour.exportProfile hok).coding)
  | convertSaveable saveable table codings background =>
    exact iff_true_intro (Normalize.codingFits_convertSaveable hcolour hshape hok)

end PixelStep

/-- The images that steps make, each of the one before. -/
def performAll (colour : ColourEngine ι) :
    Image ι → List PixelStep → Except Error (List (Image ι))
  | _, [] => .ok []
  | image, step :: rest => do
    let next ← step.perform colour image
    let others ← performAll colour next rest
    return next :: others

/-- The images of a run have the shape where each step respects what it is given. -/
theorem codingFits_of_performAll_iff (hcolour : colour.Keeps) :
    ∀ {steps : List PixelStep} {image : Image ι} {images : List (Image ι)},
      image.header.CodingFits → performAll colour image steps = .ok images →
        ((∀ out ∈ images, out.header.CodingFits) ↔
          ∀ p ∈ (image :: images).zip steps, p.2.Respects p.1.header)
  | [], image, images, _, hrun => by
    obtain rfl := Except.ok.inj hrun
    simp
  | step :: rest, image, images, hshape, hrun => by
    obtain ⟨next, hnext, hrun⟩ := bind_eq_ok.1 hrun
    obtain ⟨others, hothers, hrun⟩ := bind_eq_ok.1 hrun
    obtain rfl := Except.ok.inj hrun
    rw [List.zip_cons_cons, List.forall_mem_cons, List.forall_mem_cons,
      PixelStep.codingFits_perform_iff hcolour hshape hnext]
    -- Without the shape of the next image nothing is said of those behind it.
    refine and_congr_right fun hstep => ?_
    have hshape := (PixelStep.codingFits_perform_iff hcolour hshape hnext).2 hstep
    exact codingFits_of_performAll_iff hcolour hshape hothers

/-- **Packed pixels keep their shape in a run if, and only if, no step takes samples for what they
are not:** of a packed image none is flattened, no bands are extracted but all four, and it is cast
to `uchar` alone. Then the unpackers find four bytes in every pixel of every image of the run. -/
theorem codingFits_performAll_iff (image : Image ι) (hshape : image.header.CodingFits)
    (steps : List PixelStep) (images : List (Image ι))
    (hrun : performAll Colour.basic image steps = .ok images) :
    ((∀ out ∈ images, out.header.CodingFits) ↔
      ∀ p ∈ (image :: images).zip steps, p.2.Respects p.1.header) ∧
    ((∀ p ∈ (image :: images).zip steps, p.2.Respects p.1.header) →
      ∀ out ∈ image :: images, ∀ bytes : Bytes,
        (out.header.coding = .labq → ∃ unpacked,
          Source.mapPixels out.header (Packed.unpackWith Packed.unpackLab) bytes
            = .ok unpacked) ∧
        (out.header.coding = .rad → ∃ unpacked,
          Source.mapPixels out.header (Packed.unpackWith Packed.unpackRadiance) bytes
            = .ok unpacked)) := by
  have hiff := codingFits_of_performAll_iff Colour.keeps_basic hshape hrun
  refine ⟨hiff, fun hsteps out hout bytes => ?_⟩
  have hout : out.header.CodingFits := by
    rcases List.mem_cons.1 hout with rfl | hout
    · exact hshape
    · exact hiff.2 hsteps out hout
  constructor
  · intro hcoding
    exact Source.mapPixels_unpackWith hout (hcoding ▸ by decide) (fun _ _ _ _ => rfl) bytes
  · intro hcoding
    exact Source.mapPixels_unpackWith hout (hcoding ▸ by decide) Packed.length_unpackRadiance
      bytes

/-- Two pixels of 16 bits with alpha: packed as LabQ, left as they are by two steps, and packed
again as Radiance. -/
theorem codingFits_performAll_iff_repacked :
    let base : Image Empty :=
      { header :=
          { width := 1, height := 2, bands := 4, format := .ushort, interpretation := .rgb16 }
        source := .direct { origin := 0 } fun _ _ => .ok [] }
    let steps : List PixelStep :=
      [.colourspace .lab, .labToLabq, .extractBands 0 4, .cast .uchar true,
        .convertSaveable { any := true } .identity { rad := true } []]
    base.header.CodingFits ∧ ∃ images, performAll Colour.basic base steps = .ok images ∧
      images.map (·.header.coding) = [.none, .labq, .labq, .labq, .rad] ∧
      ∀ out ∈ images, out.header.CodingFits := by
  intro base steps
  obtain ⟨images, hrun, hcodings, hsteps⟩ :
      ∃ images, performAll Colour.basic base steps = .ok images ∧
        images.map (·.header.coding) = [.none, .labq, .labq, .labq, .rad] ∧
        ∀ p ∈ (base :: images).zip steps, p.2.Respects p.1.header := by
    dsimp only [base, steps]
    refine ⟨_, rfl, rfl, ?_⟩
    simp only [List.zip_cons_cons, List.zip_nil_right, List.forall_mem_cons]
    exact ⟨trivial, trivial, .inr rfl, .inr rfl, trivial, List.forall_mem_nil _⟩
  have hshape : base.header.CodingFits := .of_plain rfl
  exact ⟨hshape, images, hrun, hcodings,
    (codingFits_performAll_iff base hshape steps images hrun).1.2 hsteps⟩

/-- **The steps that take the shape away:** of a LabQ pixel one band is extracted, and what is left
of it is still said to be LabQ, so that it is unpacked and asked for bytes that it does not have. A
LabQ pixel without its last band, or in 16 bits, is said to be LabQ too. -/
theorem performAll_misfit :
    ∃ base one plain flat wide : Image Empty,
      ofBytes { origin := 0 } (.coded 1 1 .labq) [255, 0, 0, 192] = .ok base ∧
      base.header.CodingFits ∧
      performAll Colour.basic base [.extractBands 0 1, .decode] = .ok [one, plain] ∧
      ¬one.header.CodingFits ∧ plain.fetchFrom {} ⟨0, 0, 1, 1⟩ = .error .pixelOverrun ∧
      performAll Colour.basic base [.flatten []] = .ok [flat] ∧ ¬flat.header.CodingFits ∧
      performAll Colour.basic base [.cast .ushort false] = .ok [wide] ∧
      ¬wide.header.CodingFits := by
  refine ⟨_, _, _, _, _, rfl, ?_, rfl, ?_, rfl, rfl, ?_, rfl, ?_⟩
  all_goals decide

end Image

end Raster
