/-
# What fitting an image to a saver ends in

Whatever way an image takes through the steps, it comes out in a coding that the
saver takes and, where it has none, in a format of the saver's table; its size,
its resolution and its metadata stay as they were.

| step | leaves |
| --- | --- |
| `fitColour` | no coding (`keeps_fitColour`) |
| flattening and dropping bands | the coding as it is |
| cast | a format of the table |
| `recode` | a coding that the saver takes, the same format without one (`recode_spec`) |

Where the saver takes any colour model the first step is left out. An uncoded image may then pass
although the saver takes coded ones only, and a coded one is unpacked behind the cast; but for these
two it ends in the same (`convertSaveable_any_iff`).
-/
import Raster.Normalize
import Raster.Proofs.Image.Operations

namespace Raster

namespace Normalize

variable {ι : Type} {image out : Image ι} {saveable : Saveable} {codings : CodingSet}
  {colour : ColourEngine ι}

/-- Step `unpack`. -/
def unpack (image : Image ι) (colour : ColourEngine ι) : Except Error (Image ι) :=
  match image.header.coding with
  | .labq => colour.colourspace image .srgb
  | .rad => image.radToFloat
  | .none => .ok image

/-- The first colour model that the saver takes. -/
def firstModel (sixteen : Bool) (saveable : Saveable) (colour : ColourEngine ι) (image : Image ι) :
    Except Error (Image ι) :=
  if saveable.rgb then colour.colourspace image (if sixteen then .rgb16 else .srgb)
  else if saveable.cmyk then colour.exportProfile image (if sixteen then 16 else 8)
  else if saveable.mono then colour.colourspace image (if sixteen then .grey16 else .bw)
  else .error .unsupportedOutputModel

/-- Whether an image is CMYK. -/
def isCmyk (image : Image ι) : Bool :=
  image.header.guessInterpretation == .cmyk && 4 ≤ image.header.bands

/-- Step `colour` of an uncoded image. -/
def fitPlain (sixteen : Bool) (saveable : Saveable) (colour : ColourEngine ι) (image : Image ι) :
    Except Error (Image ι) :=
  if saveable.mono && image.header.bands < 3 then .ok image
  else if isCmyk image then
    if saveable.cmyk then .ok image
    else colour.importProfile image true >>= firstModel sixteen saveable colour
  else firstModel sixteen saveable colour image

/-- The colour step is unpacking and then fitting what is not packed. -/
theorem fitColour_eq (hany : saveable.any = false) :
    fitColour image saveable colour =
      unpack image colour >>= fitPlain (image.header.format == .ushort) saveable colour := by
  unfold fitColour unpack
  rw [hany, if_neg Bool.false_ne_true]
  have hplain : ∀ plain : Image ι, (do
      if saveable.mono && plain.header.bands < 3 then return plain
      if isCmyk plain && saveable.cmyk then return plain
      let plain ← if isCmyk plain then colour.importProfile plain true else pure plain
      firstModel (image.header.format == .ushort) saveable colour plain) =
        fitPlain (image.header.format == .ushort) saveable colour plain := by
    intro plain
    unfold fitPlain
    cases isCmyk plain with
    | false => rfl
    | true => cases saveable.cmyk <;> rfl
  cases image.header.coding with
  | none => exact hplain image
  | labq => exact congrArg _ (funext hplain)
  | rad => exact congrArg _ (funext hplain)

/-- A saver that takes any colour model gets the image as it is. -/
theorem fitColour_any (hany : saveable.any = true) :
    fitColour image saveable colour = .ok image := by
  unfold fitColour
  rw [hany, if_pos rfl]
  rfl

/-- The unpack step leaves no coding. -/
theorem keeps_unpack (hcolour : colour.Keeps) (h : unpack image colour = .ok out) :
    image.Keeps .none out := by
  unfold unpack at h
  split at h
  · exact hcolour.colourspace h
  · exact Image.keeps_radToFloat h
  · rename_i hcoding
    obtain rfl := Except.ok.inj h
    exact hcoding ▸ .refl image

/-- A conversion neither. -/
theorem keeps_firstModel {sixteen : Bool} (hcolour : colour.Keeps)
    (h : firstModel sixteen saveable colour image = .ok out) : image.Keeps .none out := by
  unfold firstModel at h
  split at h
  · exact hcolour.colourspace h
  · split at h
    · exact hcolour.exportProfile h
    · split at h
      · exact hcolour.colourspace h
      · cases h

/-- So the colour step ends without one. -/
theorem keeps_fitPlain {sixteen : Bool} (hcolour : colour.Keeps)
    (hplain : image.header.coding = .none) (h : fitPlain sixteen saveable colour image = .ok out) :
    image.Keeps .none out := by
  have hsame : image.Keeps .none image := hplain ▸ .refl image
  unfold fitPlain at h
  split at h
  · obtain rfl := Except.ok.inj h
    exact hsame
  · split at h
    · split at h
      · obtain rfl := Except.ok.inj h
        exact hsame
      · obtain ⟨imported, himported, h⟩ := bind_eq_ok.1 h
        exact (hcolour.importProfile himported).trans (keeps_firstModel hcolour h)
    · exact keeps_firstModel hcolour h

/-- **An image fitted to a colour model has no coding.** -/
theorem keeps_fitColour (hcolour : colour.Keeps) (hany : saveable.any = false)
    (h : fitColour image saveable colour = .ok out) : image.Keeps .none out := by
  rw [fitColour_eq hany] at h
  obtain ⟨plain, hplain, h⟩ := bind_eq_ok.1 h
  have hkeeps := keeps_unpack hcolour hplain
  exact hkeeps.trans (keeps_fitPlain hcolour hkeeps.coding h)

/-- **What is recoded has a coding that the saver takes.**  Without a coding nothing has happened to
an uncoded image. -/
theorem recode_spec (hcodings : ∃ coding, codings.accepts coding = true)
    (hplain : image.header.coding = .none) (h : recode image codings = .ok out) :
    image.Keeps out.header.coding out ∧ codings.accepts out.header.coding = true ∧
      (out.header.coding = .none → out = image) := by
  unfold recode at h
  split at h
  · rename_i haccepts
    obtain rfl := Except.ok.inj h
    exact ⟨.refl image, haccepts, fun _ => rfl⟩
  · rename_i hrefused
    obtain ⟨plain, hdecode, h⟩ := bind_eq_ok.1 h
    have hkeeps := Image.keeps_decode hdecode
    split at h
    · rename_i hlabq
      have hout := hkeeps.trans (Image.keeps_labToLabq h)
      rw [hout.coding]
      exact ⟨hout, hlabq, fun h => nomatch h⟩
    · rename_i hlabq
      split at h
      · rename_i hrad
        have hout := hkeeps.trans (Image.keeps_floatToRad h)
        rw [hout.coding]
        exact ⟨hout, hrad, fun h => nomatch h⟩
      · rename_i hrad
        rw [hplain] at hrefused
        obtain ⟨coding, haccepts⟩ := hcodings
        cases coding <;> contradiction

/-- A coding that is refused is removed, and put in place of it is the first one that the saver
takes, if there is one. -/
theorem recode_refused (hrefused : codings.accepts image.header.coding = false)
    (h : recode image codings = .ok out) : ∃ plain, image.decode = .ok plain ∧
      ((codings.labq = true ∧ plain.labToLabq = .ok out) ∨
        (codings.rad = true ∧ plain.floatToRad = .ok out) ∨
        codings.labq = false ∧ codings.rad = false ∧ out = plain) := by
  unfold recode at h
  rw [hrefused, if_neg Bool.false_ne_true] at h
  obtain ⟨plain, hplain, h⟩ := bind_eq_ok.1 h
  refine ⟨plain, hplain, ?_⟩
  split at h
  · rename_i hlabq
    exact .inl ⟨hlabq, h⟩
  · rename_i hlabq
    split at h
    · rename_i hrad
      exact .inr (.inl ⟨hrad, h⟩)
    · rename_i hrad
      exact .inr (.inr ⟨Bool.eq_false_iff.2 hlabq, Bool.eq_false_iff.2 hrad,
        (Except.ok.inj h).symm⟩)

/-- Step `alpha`. -/
def dropAlpha (saveable : Saveable) (background : List Double) (image : Image ι) :
    Except Error (Image ι) :=
  if image.header.coding = .none ∧ image.header.hasAlpha ∧ !saveable.alpha then
    image.flatten background
  else .ok image

/-- Step `bands`. -/
def dropBands (saveable : Saveable) (image : Image ι) : Except Error (Image ι) :=
  maxBands image.header saveable >>= fun most =>
    if 0 < most ∧ most < image.header.bands then image.extractBands 0 most else .ok image

/-- Whether a saver's limit, of one band more than there are, is no word. -/
def Crowded (saveable : Saveable) (h : Header) : Prop :=
  saveable.alpha = true ∧ UInt32.size ≤ h.bands.toNat + 1

instance (saveable : Saveable) (h : Header) : Decidable (Crowded saveable h) :=
  inferInstanceAs (Decidable (_ ∧ _))

/-- A saver that takes any colour model takes all bands. -/
theorem dropBands_any (hany : saveable.any = true) (hroom : ¬Crowded saveable image.header) :
    dropBands saveable image = .ok image := by
  rw [dropBands, maxBands, hany, if_pos rfl]
  dsimp only
  split
  · rename_i halpha
    have hmore : image.header.bands.toNat + 1 < UInt32.size :=
      Nat.not_le.1 fun hfull => hroom ⟨halpha, hfull⟩
    have hsum : checkedSum image.header.bands 1 = .ok (image.header.bands + 1) := if_pos hmore
    have hnext := checkedSum_eq_ok.1 hsum
    rw [hsum]
    refine if_neg fun hless => ?_
    have hless := UInt32.lt_iff_toNat_lt.1 hless.2
    rw [← hnext] at hless
    exact Nat.not_lt.2 (Nat.le_succ _) hless
  · exact if_neg fun hless => UInt32.lt_irrefl _ hless.2

/-- Its limit may be no word. -/
theorem dropBands_crowded (hany : saveable.any = true) (hfull : Crowded saveable image.header) :
    dropBands saveable image = .error .overflow := by
  have hsum : checkedSum image.header.bands 1 = .error .overflow := if_neg (Nat.not_lt.2 hfull.2)
  rw [dropBands, maxBands, hany, hfull.1]
  simp only [if_true, hsum]
  rfl

/-- Under a saver of anything no band is dropped. -/
theorem eq_of_dropBands_any (hany : saveable.any = true) (h : dropBands saveable image = .ok out) :
    out = image := by
  by_cases hfull : Crowded saveable image.header
  · rw [dropBands_crowded hany hfull] at h
    cases h
  · rw [dropBands_any hany hfull] at h
    exact (Except.ok.inj h).symm

/-- Step `format`. -/
def promote (table : FormatTable) (image : Image ι) : Image ι :=
  if image.header.coding = .none then
    let target := table image.header.format
    image.cast target (!image.header.format.is8Bit && target.is8Bit)
  else image

/-- The steps behind the first one, for an image that does not pass. -/
theorem convertSaveable_eq {table : FormatTable} {background : List Double}
    (hcoded : ¬(image.header.coding ≠ .none ∧ codings.accepts image.header.coding = true))
    (hplain : ¬(image.header.coding = .none ∧ saveable.any = true ∧
      table image.header.format = image.header.format)) :
    convertSaveable image saveable table codings background colour =
      fitColour image saveable colour >>= fun fitted => dropAlpha saveable background fitted >>=
        fun flat => dropBands saveable flat >>= fun trimmed =>
          recode (promote table trimmed) codings := by
  unfold convertSaveable
  rw [if_neg hcoded, if_neg hplain]
  refine congrArg _ (funext fun fitted => ?_)
  -- What follows a step that is left out stands in both branches of its condition.
  have htrim : ∀ flat : Image ι, (do
      let most ← maxBands flat.header saveable
      let out ← if 0 < most ∧ most < flat.header.bands then flat.extractBands 0 most else pure flat
      recode (promote table out) codings) =
        dropBands saveable flat >>= fun trimmed => recode (promote table trimmed) codings := by
    intro flat
    rw [dropBands]
    cases maxBands flat.header saveable with
    | error e => rfl
    | ok most =>
      dsimp only [bind, Except.bind]
      split <;> rfl
  unfold dropAlpha
  by_cases halpha : fitted.header.coding = .none ∧ fitted.header.hasAlpha ∧ !saveable.alpha
  · rw [if_pos halpha, if_pos halpha]
    exact congrArg _ (funext htrim)
  · rw [if_neg halpha, if_neg halpha]
    exact htrim fitted

/-- Dropping alpha changes bands and pixels only. -/
theorem keeps_dropAlpha {background : List Double}
    (h : dropAlpha saveable background image = .ok out) : image.Keeps image.header.coding out := by
  unfold dropAlpha at h
  split at h
  · exact Image.keeps_flatten h
  · obtain rfl := Except.ok.inj h
    exact .refl image

/-- So does dropping bands. -/
theorem keeps_dropBands (h : dropBands saveable image = .ok out) :
    image.Keeps image.header.coding out := by
  obtain ⟨most, -, h⟩ := bind_eq_ok.1 h
  split at h
  · exact Image.keeps_extractBands h
  · obtain rfl := Except.ok.inj h
    exact .refl image

/-- Promoting changes the format only. -/
theorem keeps_promote (table : FormatTable) (image : Image ι) :
    image.Keeps image.header.coding (promote table image) := by
  unfold promote
  split
  · exact Image.keeps_cast image _ _
  · exact .refl image

/-- What is not packed comes to the format of the table. -/
theorem format_promote (table : FormatTable) (hplain : image.header.coding = .none) :
    (promote table image).header.format = table image.header.format := by
  rw [promote, if_pos hplain]
  exact Image.format_cast image _ _

/-- An image made from another one that a saver with a table and some codings takes. -/
structure Conforms (image : Image ι) (table : FormatTable) (codings : CodingSet) (out : Image ι) :
    Prop where
  keeps : image.Keeps out.header.coding out
  accepted : codings.accepts out.header.coding = true
  promoted : out.header.coding = .none → ∃ f, out.header.format = table f

/-- **A saver gets what it takes, whatever engine converts the colours.** -/
theorem conforms_of_convertSaveable {table : FormatTable} {background : List Double}
    (hcolour : colour.Keeps) (hany : saveable.any = false)
    (hcodings : ∃ coding, codings.accepts coding = true)
    (h : convertSaveable image saveable table codings background colour = .ok out) :
    Conforms image table codings out := by
  by_cases hcoded : image.header.coding ≠ .none ∧ codings.accepts image.header.coding = true
  · rw [convertSaveable, if_pos hcoded] at h
    obtain rfl := Except.ok.inj h
    exact ⟨.refl image, hcoded.2, fun hplain => absurd hplain hcoded.1⟩
  · have hplain : ¬(image.header.coding = .none ∧ saveable.any = true ∧
        table image.header.format = image.header.format) := by
      rw [hany]
      exact fun h => Bool.false_ne_true h.2.1
    rw [convertSaveable_eq hcoded hplain] at h
    obtain ⟨fitted, hfitted, h⟩ := bind_eq_ok.1 h
    obtain ⟨flat, hflat, h⟩ := bind_eq_ok.1 h
    obtain ⟨trimmed, htrimmed, h⟩ := bind_eq_ok.1 h
    have hfitted := keeps_fitColour hcolour hany hfitted
    have hflat := hfitted.trans (hfitted.coding ▸ keeps_dropAlpha hflat)
    have htrimmed := hflat.trans (hflat.coding ▸ keeps_dropBands htrimmed)
    have hpromoted := htrimmed.trans (htrimmed.coding ▸ keeps_promote table trimmed)
    obtain ⟨hkeeps, haccepts, hsame⟩ := recode_spec hcodings hpromoted.coding h
    refine ⟨hpromoted.trans hkeeps, haccepts, fun hplain => ?_⟩
    rw [hsame hplain]
    exact ⟨_, format_promote table htrimmed.coding⟩

/-- **What a saver that does not take anything at all gets.**  A coding that it accepts and, without
one, a format of its table; width, height, resolution and metadata are the image's own. -/
theorem convertSaveable_basic (image : Image ι) (saveable : Saveable) (table : FormatTable)
    (codings : CodingSet) (background : List Double) (hany : saveable.any = false)
    (hcodings : ∃ coding, codings.accepts coding = true) (out : Image ι)
    (h : convertSaveable image saveable table codings background Colour.basic = .ok out) :
    codings.accepts out.header.coding = true ∧
      (out.header.coding = .none → ∃ f, out.header.format = table f) ∧
      out.header.width = image.header.width ∧ out.header.height = image.header.height ∧
      out.header.xres = image.header.xres ∧ out.header.yres = image.header.yres ∧
      out.metadata = image.metadata := by
  have hconforms := conforms_of_convertSaveable Colour.keeps_basic hany hcodings h
  have hkeeps := hconforms.keeps
  exact ⟨hconforms.accepted, hconforms.promoted, hkeeps.width, hkeeps.height, hkeeps.xres,
    hkeeps.yres, hkeeps.metadata⟩

/-- A 16-bit RGB image with alpha, for a saver of grey and RGB in eight bits or Radiance. -/
theorem convertSaveable_basic_alpha :
    let image : Image Empty :=
      { header :=
          { width := 2, height := 3, bands := 4, format := .ushort, interpretation := .rgb16 }
        metadata := Fields.empty.insert Metadata.imageDescription (.text "sky")
        source := .direct { origin := 0 } fun _ _ => .ok [] }
    let saveable : Saveable := { mono := true, rgb := true }
    let codings : CodingSet := { rad := true }
    ∃ out, saveable.any = false ∧ codings.accepts .rad = true ∧
      convertSaveable image saveable .allUchar codings [] Colour.basic = .ok out ∧
      codings.accepts out.header.coding = true ∧ out.metadata = image.metadata := by
  intro image saveable codings
  have hok : (convertSaveable image saveable .allUchar codings [] Colour.basic).isOk = true := by
    decide
  cases h : convertSaveable image saveable .allUchar codings [] Colour.basic with
  | error e =>
    rw [h] at hok
    cases hok
  | ok out =>
    have hall := convertSaveable_basic image saveable .allUchar codings [] rfl ⟨.rad, rfl⟩ out h
    exact ⟨out, rfl, rfl, rfl, hall.1, hall.2.2.2.2.2.2⟩

/-! ### Savers that take any colour model -/

/-- A coded image takes none of the steps in front of the last one. -/
theorem dropAlpha_coded {background : List Double} (hcoded : image.header.coding ≠ .none) :
    dropAlpha saveable background image = .ok image := by
  rw [dropAlpha, if_neg fun h => hcoded h.1]

/-- What is packed has no samples to be promoted. -/
theorem promote_coded (table : FormatTable) (hcoded : image.header.coding ≠ .none) :
    promote table image = image := by
  rw [promote, if_neg hcoded]

/-- The steps that such a saver leaves of those behind the first one. -/
theorem convertSaveable_eq_any {table : FormatTable} {background : List Double}
    (hany : saveable.any = true)
    (hcoded : ¬(image.header.coding ≠ .none ∧ codings.accepts image.header.coding = true))
    (hplain : ¬(image.header.coding = .none ∧ table image.header.format = image.header.format)) :
    convertSaveable image saveable table codings background colour =
      dropAlpha saveable background image >>= fun flat => dropBands saveable flat >>= fun trimmed =>
        recode (promote table trimmed) codings := by
  rw [convertSaveable_eq hcoded (fun hpass => hplain ⟨hpass.1, hpass.2.2⟩), fitColour_any hany]
  rfl

/-- An uncoded image that does not pass comes out as the saver wants it. -/
theorem accepted_of_plain {table : FormatTable} {background : List Double}
    (hany : saveable.any = true) (hcodings : ∃ coding, codings.accepts coding = true)
    (hplain : image.header.coding = .none) (htable : table image.header.format ≠ image.header.format)
    (h : convertSaveable image saveable table codings background colour = .ok out) :
    codings.accepts out.header.coding = true ∧
      (out.header.coding = .none → ∃ f, out.header.format = table f) := by
  rw [convertSaveable_eq_any hany (fun hpass => hpass.1 hplain) fun hpass => htable hpass.2] at h
  obtain ⟨flat, hflat, h⟩ := bind_eq_ok.1 h
  obtain ⟨trimmed, htrimmed, hrecode⟩ := bind_eq_ok.1 h
  obtain rfl := eq_of_dropBands_any hany htrimmed
  have hflat := hplain ▸ keeps_dropAlpha hflat
  have hpromoted : (promote table trimmed).header.coding = .none :=
    (keeps_promote table trimmed).coding.trans hflat.coding
  obtain ⟨-, haccepts, hsame⟩ := recode_spec hcodings hpromoted hrecode
  refine ⟨haccepts, fun hout => ?_⟩
  rw [hsame hout]
  exact ⟨_, format_promote table hflat.coding⟩

/-- A coded image that does not pass is recoded, and that is all. -/
theorem recode_of_coded {table : FormatTable} {background : List Double}
    (hany : saveable.any = true) (hcoded : image.header.coding ≠ .none)
    (hrefused : codings.accepts image.header.coding = false)
    (h : convertSaveable image saveable table codings background colour = .ok out) :
    recode image codings = .ok out := by
  have hpass : ¬(image.header.coding ≠ .none ∧ codings.accepts image.header.coding = true) :=
    fun hpass => Bool.false_ne_true (hrefused.symm.trans hpass.2)
  rw [convertSaveable_eq_any hany hpass fun hplain => hcoded hplain.1, dropAlpha_coded hcoded] at h
  obtain ⟨trimmed, htrimmed, hrecode⟩ : ∃ trimmed, dropBands saveable image = .ok trimmed ∧
      recode (promote table trimmed) codings = .ok out := bind_eq_ok.1 h
  obtain rfl := eq_of_dropBands_any hany htrimmed
  exact promote_coded table hcoded ▸ hrecode

/-- **What a saver of any colour model gets.**  A coding that it accepts and, without one, a format
of its table, but for two kinds of images: an uncoded one that passes since its format is as wanted,
though the saver takes no plain samples; and one that has to be unpacked for a saver of plain samples
alone, which gets them in single precision whether or not this is in its table. -/
theorem convertSaveable_any_iff (image : Image ι) (saveable : Saveable) (table : FormatTable)
    (codings : CodingSet) (background : List Double) (colour : ColourEngine ι)
    (hany : saveable.any = true) (hcodings : ∃ coding, codings.accepts coding = true)
    (out : Image ι)
    (h : convertSaveable image saveable table codings background colour = .ok out) :
    (codings.accepts out.header.coding = true ∧
        (out.header.coding = .none → ∃ f, out.header.format = table f)) ↔
      ¬(image.header.coding = .none ∧ table image.header.format = image.header.format ∧
        codings.plain = false) ∧
      ¬(image.header.coding ≠ .none ∧ codings = .plainOnly ∧ ∀ f, table f ≠ .float) := by
  by_cases hplain : image.header.coding = .none
  · have hright : ¬(image.header.coding ≠ .none ∧ codings = .plainOnly ∧ ∀ f, table f ≠ .float) :=
      fun hcoded => hcoded.1 hplain
    by_cases htable : table image.header.format = image.header.format
    · rw [convertSaveable, if_neg (fun hcoded => hcoded.1 hplain),
        if_pos ⟨hplain, hany, htable⟩] at h
      obtain rfl := Except.ok.inj h
      have haccepts : codings.accepts image.header.coding = codings.plain := by rw [hplain]; rfl
      rw [haccepts]
      constructor
      · rintro ⟨htakes, -⟩
        exact ⟨fun hpass => Bool.false_ne_true (hpass.2.2.symm.trans htakes), hright⟩
      · rintro ⟨hpass, -⟩
        exact ⟨eq_true_of_ne_false fun hno => hpass ⟨hplain, htable, hno⟩,
          fun _ => ⟨_, htable.symm⟩⟩
    · have hconforms := accepted_of_plain hany hcodings hplain htable h
      exact iff_of_true hconforms ⟨fun hpass => htable hpass.2.1, hright⟩
  · have hleft : ¬(image.header.coding = .none ∧ table image.header.format = image.header.format ∧
        codings.plain = false) := fun hpass => hplain hpass.1
    cases haccepts : codings.accepts image.header.coding with
    | true =>
      rw [convertSaveable, if_pos ⟨hplain, haccepts⟩] at h
      obtain rfl := Except.ok.inj h
      refine iff_of_true ⟨haccepts, fun hnone => absurd hnone hplain⟩ ⟨hleft, ?_⟩
      rintro ⟨-, rfl, -⟩
      cases hcoding : image.header.coding with
      | none => exact hplain hcoding
      | labq => rw [hcoding] at haccepts; cases haccepts
      | rad => rw [hcoding] at haccepts; cases haccepts
    | false =>
      have hrecode := recode_of_coded hany hplain haccepts h
      obtain ⟨plain, hdecode, ⟨hlabq, hpack⟩ | ⟨hrad, hpack⟩ | ⟨hlabq, hrad, rfl⟩⟩ :=
        recode_refused haccepts hrecode
      · have hcoding := (Image.keeps_labToLabq hpack).coding
        rw [hcoding]
        refine iff_of_true ⟨hlabq, nofun⟩ ⟨hleft, ?_⟩
        rintro ⟨-, rfl, -⟩
        cases hlabq
      · have hcoding := (Image.keeps_floatToRad hpack).coding
        rw [hcoding]
        refine iff_of_true ⟨hrad, nofun⟩ ⟨hleft, ?_⟩
        rintro ⟨-, rfl, -⟩
        cases hrad
      · have hcoding := (Image.keeps_decode hdecode).coding
        have hformat := Image.format_decode hplain hdecode
        have honly : codings = .plainOnly := by
          obtain ⟨takesPlain, takesLabq, takesRad⟩ := codings
          obtain rfl : takesLabq = false := hlabq
          obtain rfl : takesRad = false := hrad
          obtain ⟨coding, htakes⟩ := hcodings
          cases coding with
          | none =>
            obtain rfl : takesPlain = true := htakes
            rfl
          | labq => cases htakes
          | rad => cases htakes
        rw [hcoding, hformat]
        subst honly
        constructor
        · rintro ⟨-, hpromoted⟩
          obtain ⟨f, hf⟩ := hpromoted rfl
          exact ⟨hleft, fun hslip => hslip.2.2 f hf.symm⟩
        · rintro ⟨-, hslip⟩
          exact ⟨rfl, fun _ => Classical.byContradiction fun hnone =>
            hslip ⟨hplain, rfl, fun f hf => hnone ⟨f, hf.symm⟩⟩⟩

/-- A Radiance image for a saver that takes anything, eight-bit samples or LabQ: it is unpacked and
packed again. -/
theorem convertSaveable_any_repacked :
    let image : Image Empty :=
      { header := .coded 2 3 .rad, source := .direct { origin := 0 } fun _ _ => .ok [] }
    let codings : CodingSet := { plain := true, labq := true }
    ∃ out, codings.accepts .labq = true ∧
      convertSaveable image { any := true } .allUchar codings [] Colour.basic = .ok out ∧
      codings.accepts out.header.coding = true := by
  intro image codings
  obtain ⟨out, hout⟩ :
      ∃ out, convertSaveable image { any := true } .allUchar codings [] Colour.basic = .ok out :=
    ⟨_, rfl⟩
  have hiff := convertSaveable_any_iff image { any := true } .allUchar codings [] Colour.basic rfl
    ⟨.labq, rfl⟩ out hout
  have honly : codings ≠ .plainOnly := by decide
  exact ⟨out, rfl, hout, (hiff.2 ⟨by decide, fun hslip => honly hslip.2.1⟩).1⟩

/-- **What such a saver does not take:** a LabQ image comes to a saver of plain eight-bit samples in
single precision, and an uncoded image to a saver of LabQ as it is. -/
theorem convertSaveable_any_unaccepted :
    let packed : Image Empty :=
      { header := .coded 1 1 .labq, source := .direct { origin := 0 } fun _ _ => .ok [] }
    let plain : Image Empty :=
      { header := { width := 1, height := 1, bands := 3, format := .float, interpretation := .lab }
        source := .direct { origin := 0 } fun _ _ => .ok [] }
    (∃ out, convertSaveable packed { any := true } .allUchar .plainOnly [] Colour.basic = .ok out ∧
        out.header.coding = .none ∧ ∀ f, out.header.format ≠ FormatTable.allUchar f) ∧
      ∃ out, convertSaveable plain { any := true } .identity { labq := true } [] Colour.basic
          = .ok out ∧ CodingSet.accepts { labq := true } out.header.coding = false :=
  ⟨⟨_, rfl, rfl, fun _ h => nomatch h⟩, _, rfl, rfl⟩

end Normalize

end Raster
