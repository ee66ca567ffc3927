/-
# What operations keep of an image

Every operation on pixels keeps the size, the resolution and all metadata of its
image; some of them change the coding.

| operation | coding of the result |
| --- | --- |
| `flatten`, `extractBands`, `cast` | the same |
| `labqToLab`, `radToFloat`, `decode`, colour conversions | none |
| `labToLabq` | LabQ |
| `floatToRad` | Radiance |

A store keeps the whole header (`header_of_fill`).
-/
import Raster.Colour
import Raster.Image.Store
import Raster.Proofs.Image.Window
import Raster.Proofs.Result

namespace Raster

namespace Image

variable {ι : Type}

/-- An image made from another one, in a coding: size, resolution and metadata are the same. -/
structure Keeps (image : Image ι) (coding : Coding) (out : Image ι) : Prop where
  width : out.header.width = image.header.width
  height : out.header.height = image.header.height
  xres : out.header.xres = image.header.xres
  yres : out.header.yres = image.header.yres
  metadata : out.metadata = image.metadata
  coding : out.header.coding = coding

variable {image out : Image ι} {coding coding' : Coding}

/-- What is left as it is keeps everything. -/
theorem Keeps.refl (image : Image ι) : image.Keeps image.header.coding image :=
  ⟨rfl, rfl, rfl, rfl, rfl, rfl⟩

/-- What is kept by one operation and by the next is kept. -/
theorem Keeps.trans {between : Image ι} (h : image.Keeps coding between)
    (h' : between.Keeps coding' out) : image.Keeps coding' out :=
  ⟨h'.width.trans h.width, h'.height.trans h.height, h'.xres.trans h.xres, h'.yres.trans h.yres,
    h'.metadata.trans h.metadata, h'.coding⟩

/-! ### Points -/

/-- Flattening changes bands and pixels only. -/
theorem keeps_flatten {background : List Double} (h : image.flatten background = .ok out) :
    image.Keeps image.header.coding out := by
  simp only [flatten] at h
  split at h
  · obtain rfl := Except.ok.inj h
    exact .refl image
  · obtain ⟨background, -, h⟩ := bind_eq_ok.1 h
    obtain rfl := Except.ok.inj h
    exact ⟨rfl, rfl, rfl, rfl, rfl, rfl⟩

/-- The image of some bands. -/
def extracted (image : Image ι) (first n : UInt32) : Image ι :=
  if first = 0 ∧ n = image.header.bands then image
  else
    image.map { image.header with bands := n }
      (pixelPart (first.toNat * image.header.format.size) (n.toNat * image.header.format.size))

/-- All bands are the same bands, so the short cut for them makes no difference to the header. -/
theorem header_extracted (image : Image ι) (first n : UInt32) :
    (image.extracted first n).header = { image.header with bands := n } := by
  rw [extracted]
  split
  · rename_i hall
    rw [hall.2]
  · rfl

/-- Nor to the metadata. -/
theorem metadata_extracted (image : Image ι) (first n : UInt32) :
    (image.extracted first n).metadata = image.metadata := by
  rw [extracted]
  split <;> rfl

/-- **Bands are extracted where there are such bands.** -/
theorem extractBands_eq_ok {first n : UInt32} : image.extractBands first n = .ok out ↔
    n ≠ 0 ∧ first.toNat + n.toNat ≤ image.header.bands.toNat ∧ out = image.extracted first n := by
  rw [extractBands]
  cases hsum : checkedSum first n with
  | error e =>
    have hlarge := (checkedSum_eq_error.1 hsum).1
    have hbands : image.header.bands.toNat < UInt32.size := image.header.bands.toNat_lt
    exact ⟨nofun, fun h => absurd (Nat.le_trans hlarge h.2.1) (Nat.not_le.2 hbands)⟩
  | ok behind =>
    rw [checkedSum_eq_ok.1 hsum, ← UInt32.le_iff_toNat_le, ← UInt32.not_lt, ← and_assoc,
      ← not_or, extracted]
    dsimp only [bind, Except.bind]
    split
    · rename_i hrefused
      exact ⟨nofun, fun h => absurd hrefused h.1⟩
    · rename_i hinside
      rw [and_iff_right hinside]
      split <;> exact ⟨fun h => (Except.ok.inj h).symm, fun h => congrArg Except.ok h.symm⟩

/-- Extraction changes bands and pixels only. -/
theorem keeps_extractBands {first n : UInt32} (h : image.extractBands first n = .ok out) :
    image.Keeps image.header.coding out := by
  obtain ⟨-, -, rfl⟩ := extractBands_eq_ok.1 h
  have hheader := image.header_extracted first n
  exact ⟨by rw [hheader], by rw [hheader], by rw [hheader], by rw [hheader],
    image.metadata_extracted first n, by rw [hheader]⟩

/-- A cast changes format and pixels only. -/
theorem keeps_cast (image : Image ι) (target : BandFormat) (shift : Bool) :
    image.Keeps image.header.coding (image.cast target shift) := by
  simp only [cast]
  split
  · exact .refl image
  · exact ⟨rfl, rfl, rfl, rfl, rfl, rfl⟩

/-- A cast leads to its target, even where there is nothing to do. -/
theorem format_cast (image : Image ι) (target : BandFormat) (shift : Bool) :
    (image.cast target shift).header.format = target := by
  simp only [cast]
  split
  · assumption
  · rfl

/-- And leaves the number of bands. -/
theorem bands_cast (image : Image ι) (target : BandFormat) (shift : Bool) :
    (image.cast target shift).header.bands = image.header.bands := by
  simp only [cast]
  split <;> rfl

/-! ### Codings -/

/-- Who goes on after this check has the coding. -/
theorem coding_of_expectCoding {u : Unit} (h : image.expectCoding coding = .ok u) :
    image.header.coding = coding := by
  unfold expectCoding at h
  split at h
  · assumption
  · cases h

/-- Unpacking leaves no coding. -/
theorem keeps_labqToLab (h : image.labqToLab = .ok out) : image.Keeps .none out := by
  obtain ⟨_, -, h⟩ := bind_eq_ok.1 h
  obtain rfl := Except.ok.inj h
  exact ⟨rfl, rfl, rfl, rfl, rfl, rfl⟩

/-- Nor does unpacking radiance. -/
theorem keeps_radToFloat (h : image.radToFloat = .ok out) : image.Keeps .none out := by
  obtain ⟨_, -, h⟩ := bind_eq_ok.1 h
  obtain rfl := Except.ok.inj h
  exact ⟨rfl, rfl, rfl, rfl, rfl, rfl⟩

/-- What was decoded has no coding. -/
theorem keeps_decode (h : image.decode = .ok out) : image.Keeps .none out := by
  unfold decode at h
  split at h
  · rename_i hplain
    obtain rfl := Except.ok.inj h
    exact hplain ▸ .refl image
  · exact keeps_labqToLab h
  · exact keeps_radToFloat h

/-- What was packed is unpacked to single precision. -/
theorem format_decode (hcoded : image.header.coding ≠ .none) (h : image.decode = .ok out) :
    out.header.format = .float := by
  unfold decode at h
  split at h
  · contradiction
  · obtain ⟨_, -, h⟩ := bind_eq_ok.1 h
    obtain rfl := Except.ok.inj h
    rfl
  · obtain ⟨_, -, h⟩ := bind_eq_ok.1 h
    obtain rfl := Except.ok.inj h
    rfl

/-- Packing leaves its own. -/
theorem keeps_labToLabq (h : image.labToLabq = .ok out) : image.Keeps .labq out := by
  obtain ⟨_, -, h⟩ := bind_eq_ok.1 h
  dsimp only at h
  split at h
  · cases h
  · obtain rfl := Except.ok.inj h
    exact ⟨rfl, rfl, rfl, rfl, rfl, rfl⟩

/-- And packing as radiance that one. -/
theorem keeps_floatToRad (h : image.floatToRad = .ok out) : image.Keeps .rad out := by
  obtain ⟨_, -, h⟩ := bind_eq_ok.1 h
  split at h
  · cases h
  · obtain rfl := Except.ok.inj h
    have hcast := keeps_cast image .float false
    exact ⟨hcast.width, hcast.height, hcast.xres, hcast.yres, hcast.metadata, rfl⟩

/-! ### Stores -/

/-- An image over bytes has the header that it was given. -/
theorem header_of_ofBytes {id : Identity} {h : Header} {bytes : Bytes}
    {image : Image ι} (hbytes : ofBytes id h bytes = .ok image) : image.header = h := by
  obtain ⟨-, -, rfl⟩ := ofBytes_eq_ok.1 hbytes
  rfl

/-- A store keeps the header. -/
theorem header_of_fill {files : Files} {kind : StoreKind} {image stored : Image Empty}
    (h : image.fill files kind = .ok stored) : stored.header = image.header := by
  cases kind with
  | direct =>
    obtain rfl := Except.ok.inj h
    rfl
  | memory =>
    obtain ⟨bytes, -, h⟩ := bind_eq_ok.1 h
    obtain ⟨copy, hcopy, h⟩ := bind_eq_ok.1 h
    obtain rfl := Except.ok.inj h
    exact (header_of_ofBytes hcopy :)
  | disc =>
    obtain ⟨chunks, -, h⟩ := bind_eq_ok.1 h
    obtain rfl := Except.ok.inj h
    rfl

end Image

/-! ### Colours -/

/-- A colour engine whose conversions keep size, resolution and metadata, and leave no coding. -/
structure ColourEngine.Keeps {ι : Type} (colour : ColourEngine ι) : Prop where
  colourspace : ∀ {image out target}, colour.colourspace image target = .ok out →
    image.Keeps .none out
  importProfile : ∀ {image out embedded}, colour.importProfile image embedded = .ok out →
    image.Keeps .none out
  exportProfile : ∀ {image out depth}, colour.exportProfile image depth = .ok out →
    image.Keeps .none out

namespace Colour

variable {ι : Type} {image out : Image ι}

/-- **What a conversion does:** it unpacks the image and relabels it, or transforms its pixels. -/
inductive Converted (image : Image ι) (target : Interpretation) (sixteen : Bool) :
    Image ι → Prop
  | relabelled {plain : Image ι} (hplain : image.decode = .ok plain)
    (hsource : sourceSpace plain.header = target)
    (hformat : plain.header.format = targetFormat target sixteen) :
    Converted image target sixteen (plain.withInterpretation target)
  | transformed {plain : Image ι} {bands : UInt32} (hplain : image.decode = .ok plain)
    (henough : (sourceSpace plain.header).colourBands.getD 1 ≤ plain.header.bands)
    (hbands : checkedSum (target.colourBands.getD 1)
      (plain.header.bands - (sourceSpace plain.header).colourBands.getD 1) = .ok bands) :
    Converted image target sixteen (plain.map
      { plain.header with
        bands, format := targetFormat target sixteen, coding := .none, interpretation := target }
      (convertPixel (sourceSpace plain.header) target plain.header.format
        (targetFormat target sixteen) (alphaMax target / plain.header.maxAlpha)))

/-- A conversion that succeeds leads to a supported space in one of two ways. -/
theorem converted_of_convert {target : Interpretation} {sixteen : Bool}
    (h : convert image target sixteen = .ok out) :
    supports target = true ∧ Converted image target sixteen out := by
  obtain ⟨plain, hplain, h⟩ := bind_eq_ok.1 h
  dsimp only at h
  split at h
  · cases h
  · rename_i htarget
    refine ⟨by simpa using htarget, ?_⟩
    split at h
    · rename_i hsame
      obtain rfl := Except.ok.inj h
      exact .relabelled hplain hsame.1 hsame.2
    · split at h
      · cases h
      · rename_i henough
        obtain ⟨bands, hbands, h⟩ := bind_eq_ok.1 h
        obtain rfl := Except.ok.inj h
        exact .transformed hplain (UInt32.not_lt.1 henough) hbands

/-- Either way it changes nothing but what it is about, and leaves no coding. -/
theorem keeps_convert {target : Interpretation} {sixteen : Bool}
    (h : convert image target sixteen = .ok out) : image.Keeps .none out := by
  cases (converted_of_convert h).2 with
  | relabelled hplain =>
    have hkeeps := Image.keeps_decode hplain
    exact hkeeps.trans ⟨rfl, rfl, rfl, rfl, rfl, hkeeps.coding⟩
  | transformed hplain => exact (Image.keeps_decode hplain).trans ⟨rfl, rfl, rfl, rfl, rfl, rfl⟩

/-- **The engine that works by formula keeps size, resolution and metadata.** -/
theorem keeps_basic : (basic : ColourEngine ι).Keeps where
  colourspace := keeps_convert
  importProfile := keeps_convert
  exportProfile h := by
    simp only [basic] at h
    split at h
    · exact keeps_convert h
    · cases h

end Colour

end Raster
