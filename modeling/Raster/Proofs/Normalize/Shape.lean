/-
# The shape that a saver gets

With the engine that works by formula, every step of fitting an image to a saver decides
by the shape of its image alone. So the steps are read off as functions of headers, and
`shape` is what they make of one:

| step | of an image | of its header |
| --- | --- | --- |
| unpack | `unpack` | `unpacked` |
| colour | `fitPlain` | `fitted` |
| alpha | `dropAlpha` | `withoutAlpha` |
| bands | `dropBands` | `trimmed` |
| format | `promote` | `promoted` |

An uncoded result has that shape (`header_of_convertSaveable`). A saver of plain samples
gets it wherever there is one (`header_convertSaveable`), and only two things are in the way
of a shape: a saver that takes no colour model, and bands that no word can count
(`convertSaveable_convertible`).
-/
import Raster.Proofs.Colour
import Raster.Proofs.Normalize

namespace Raster

namespace Normalize

variable {ι : Type} {image out : Image ι} {saveable : Saveable} {codings : CodingSet}
  {table : FormatTable} {background : List Double} {sixteen : Bool} {h : Header}

/-! ### Unpacking -/

/-- Step `unpack`. -/
def unpacked (h : Header) : Header :=
  match h.coding with
  | .none => h
  | .labq => { h with bands := 3, format := .uchar, coding := .none, interpretation := .srgb }
  | .rad => { h with bands := 3, format := .float, coding := .none, interpretation := .scrgb }

/-- What was unpacked has no coding. -/
theorem coding_unpacked (h : Header) : (unpacked h).coding = .none := by
  unfold unpacked
  split
  · assumption
  · rfl
  · rfl

/-- What has none is not unpacked. -/
theorem unpacked_of_plain (hplain : h.coding = .none) : unpacked h = h := by
  rw [unpacked, hplain]

/-- What has one comes to three bands. -/
theorem bands_unpacked (hcoded : h.coding ≠ .none) : (unpacked h).bands = 3 := by
  unfold unpacked
  split
  · contradiction
  · rfl
  · rfl

/-- Fewer than three bands were never packed. -/
theorem plain_of_few (hless : (unpacked h).bands < 3) : h.coding = .none := by
  by_contra hcoded
  rw [bands_unpacked hcoded] at hless
  exact UInt32.lt_irrefl 3 hless

/-- So there is a band left. -/
theorem bands_unpacked_pos (hbands : 0 < h.bands) : 0 < (unpacked h).bands := by
  unfold unpacked
  split
  · exact hbands
  · exact show (0 : UInt32) < 3 by decide
  · exact show (0 : UInt32) < 3 by decide

/-- LabQ unpacks to Lab, and Lab is converted without any other band. -/
theorem converted_lab (h : Header) :
    Colour.converted
      { h with bands := 3, format := .float, coding := .none, interpretation := .lab } .srgb false =
      { h with bands := 3, format := .uchar, coding := .none, interpretation := .srgb } := by
  have hsource : Colour.sourceSpace { h with
      bands := 3, format := .float, coding := .none, interpretation := .lab } = .lab := rfl
  have hbands : (3 : UInt32) + (3 - 3) = 3 := by decide
  rw [Colour.converted, hsource]
  exact congrArg (fun bands => { h with
    bands, format := .uchar, coding := .none, interpretation := .srgb }) hbands

/-- **Unpacking always succeeds,** for it asks for the coding that there is. -/
theorem exists_unpack (image : Image ι) : ∃ plain, unpack image Colour.basic = .ok plain ∧
    plain.header = unpacked image.header := by
  unfold unpack unpacked
  cases hcoding : image.header.coding with
  | none => exact ⟨image, rfl, rfl⟩
  | labq =>
    let lab := image.map { image.header with
      bands := 3, format := .float, coding := .none, interpretation := .lab }
      (Packed.unpackWith Packed.unpackLab)
    have hdecode : image.decode = .ok lab := by
      rw [Image.decode, hcoding]
      dsimp only
      rw [Image.labqToLab, Image.expectCoding, if_pos hcoding]
      rfl
    obtain ⟨plain, hconvert, hheader⟩ :=
      Colour.exists_convert lab .srgb false rfl (show (0 : UInt32) < 3 by decide) rfl
        (Colour.bandSum_of_three rfl .srgb)
    exact ⟨plain, (Colour.convert_of_decode hdecode rfl).trans hconvert,
      hheader.trans (converted_lab image.header)⟩
  | rad =>
    dsimp only
    rw [Image.radToFloat, Image.expectCoding, if_pos hcoding]
    exact ⟨_, rfl, rfl⟩

/-! ### Colour -/

/-- The space of the first colour model that a saver takes. -/
def model (saveable : Saveable) (sixteen : Bool) : Option Interpretation :=
  if saveable.rgb then some (if sixteen then .rgb16 else .srgb)
  else if saveable.cmyk then some .cmyk
  else if saveable.mono then some (if sixteen then .grey16 else .bw)
  else none

/-- Every model is a space that can be converted to. -/
theorem supports_model {target : Interpretation} (hmodel : model saveable sixteen = some target) :
    Colour.supports target = true := by
  unfold model at hmodel
  split_ifs at hmodel <;> obtain rfl := Option.some.inj hmodel <;> rfl

/-- Without grey, RGB and CMYK there is no model. -/
theorem model_eq_none : model saveable sixteen = none ↔
    ¬(saveable.mono = true ∨ saveable.rgb = true ∨ saveable.cmyk = true) := by
  unfold model
  split_ifs <;> simp_all

/-- Bringing an image to the first model is a conversion with the built-in engine, or refused. -/
theorem firstModel_basic : firstModel sixteen saveable Colour.basic image =
    match model saveable sixteen with
    | some target => Colour.convert image target sixteen
    | none => .error .unsupportedOutputModel := by
  unfold firstModel model
  cases saveable.rgb <;> cases saveable.cmyk <;> cases saveable.mono <;> cases sixteen <;> rfl

/-- The shape in the first colour model that a saver takes, whose bands a word has to count. -/
def brought (sixteen : Bool) (saveable : Saveable) (h : Header) : Except Error Header :=
  match model saveable sixteen with
  | some target =>
    if Colour.bandSum h target < UInt32.size then .ok (Colour.converted h target sixteen)
    else .error .overflow
  | none => .error .unsupportedOutputModel

/-- Step `colour`, of a shape without coding. -/
def fitted (sixteen : Bool) (saveable : Saveable) (h : Header) : Except Error Header :=
  if saveable.mono = true ∧ h.bands < 3 then .ok h
  else if saveable.cmyk = true ∧ h.interpretation = .cmyk ∧ 4 ≤ h.bands then .ok h
  else brought sixteen saveable h

/-- Whether a shape has to be converted to the first model of a saver, and has more bands behind
its colour than a word can count behind the model's. -/
def Overfull (sixteen : Bool) (saveable : Saveable) (h : Header) : Prop :=
  ¬(saveable.mono = true ∧ h.bands < 3) ∧
    ¬(saveable.cmyk = true ∧ h.interpretation = .cmyk ∧ 4 ≤ h.bands) ∧
      ∃ target, model saveable sixteen = some target ∧ UInt32.size ≤ Colour.bandSum h target

/-- What is overfull overflows. -/
theorem fitted_of_overfull (hfull : Overfull sixteen saveable h) :
    fitted sixteen saveable h = .error .overflow := by
  obtain ⟨hgrey, hinked, target, hmodel, hsum⟩ := hfull
  rw [fitted, if_neg hgrey, if_neg hinked, brought, hmodel]
  exact if_neg (Nat.not_lt.2 hsum)

/-- Where a saver takes some model, every other shape can be fitted. -/
theorem exists_fitted (sixteen : Bool) (h : Header)
    (hmodel : saveable.mono = true ∨ saveable.rgb = true ∨ saveable.cmyk = true)
    (hfew : ¬Overfull sixteen saveable h) : ∃ h', fitted sixteen saveable h = .ok h' := by
  unfold fitted
  split_ifs with hgrey hinked
  · exact ⟨_, rfl⟩
  · exact ⟨_, rfl⟩
  · rw [brought]
    cases hfirst : model saveable sixteen with
    | some target =>
      have hsum : Colour.bandSum h target < UInt32.size :=
        Nat.not_le.1 fun hsum => hfew ⟨hgrey, hinked, target, hfirst, hsum⟩
      exact ⟨_, if_pos hsum⟩
    | none => exact absurd hmodel (model_eq_none.1 hfirst)

/-- Without a model everything is refused, CMYK after its import. -/
theorem fitted_of_no_model
    (hmodel : ¬(saveable.mono = true ∨ saveable.rgb = true ∨ saveable.cmyk = true)) :
    fitted sixteen saveable h = .error .unsupportedOutputModel := by
  rw [fitted, if_neg fun h => hmodel (.inl h.1), if_neg fun h => hmodel (.inr (.inr h.1)), brought,
    model_eq_none.2 hmodel]

/-- Images are brought to a model as their shapes are. -/
theorem header_firstModel (sixteen : Bool) (saveable : Saveable)
    (hplain : image.header.coding = .none) (hbands : 0 < image.header.bands) :
    (firstModel sixteen saveable Colour.basic image).map Image.header =
      brought sixteen saveable image.header := by
  rw [firstModel_basic, brought]
  cases hmodel : model saveable sixteen with
  | none => rfl
  | some target =>
    dsimp only
    split
    · rename_i hsum
      obtain ⟨out, hconvert, hheader⟩ :=
        Colour.exists_convert image target sixteen hplain hbands (supports_model hmodel) hsum
      exact map_eq_ok.2 ⟨out, hconvert, hheader⟩
    · rename_i hsum
      rw [Colour.convert_overflow image target sixteen hplain hbands (supports_model hmodel) hsum]
      rfl

/-- Four bands that are labelled CMYK are converted as such. -/
theorem sourceSpace_of_cmyk (hplain : h.coding = .none) (hlabel : h.interpretation = .cmyk)
    (hbands : 4 ≤ h.bands) : Colour.sourceSpace h = .cmyk := by
  rw [Colour.sourceSpace, (Header.guessInterpretation_eq_cmyk hplain).2 ⟨hlabel, hbands⟩]
  rfl

/-- The bands behind the inks are fewer than all, so three more are a word. -/
theorem bandSum_xyz (hsource : Colour.sourceSpace h = .cmyk) :
    Colour.bandSum h .xyz = 3 + (h.bands.toNat - 4) ∧ Colour.bandSum h .xyz < UInt32.size := by
  have hlt : h.bands.toNat < UInt32.size := h.bands.toNat_lt
  have hsum : Colour.bandSum h .xyz = 3 + (h.bands.toNat - 4) := by
    rw [Colour.bandSum, hsource]
    rfl
  have hsize : UInt32.size = 4294967296 := rfl
  exact ⟨hsum, by omega⟩

/-- An import makes three bands of the four and keeps those beyond. -/
theorem toNat_bands_imported (hplain : h.coding = .none) (hsource : Colour.sourceSpace h = .cmyk)
    (hbands : 4 ≤ h.bands) :
    (Colour.converted h .xyz false).bands.toNat = 3 + (h.bands.toNat - 4) := by
  have hpositive : 0 < h.bands := UInt32.lt_of_lt_of_le (by decide) hbands
  obtain ⟨hsum, hword⟩ := bandSum_xyz hsource
  rw [Colour.toNat_bands_converted hplain hpositive hword, hsum]

/-- What an import leaves is read as XYZ. -/
theorem sourceSpace_imported (hplain : h.coding = .none) (hsource : Colour.sourceSpace h = .cmyk)
    (hbands : 4 ≤ h.bands) : Colour.sourceSpace (Colour.converted h .xyz false) = .xyz := by
  have hthree : 3 ≤ (Colour.converted h .xyz false).bands := by
    rw [UInt32.le_iff_toNat_le, toNat_bands_imported hplain hsource hbands]
    exact Nat.le_add_right 3 _
  have hfits : (Colour.converted h .xyz false).interpretationFits = true :=
    Bool.and_eq_true_iff.2 ⟨decide_eq_true hthree, rfl⟩
  rw [Colour.sourceSpace, Header.guessInterpretation_of_fits hfits]
  rfl

/-- So a conversion behind an import leads to as many bands as one without. -/
theorem bandSum_imported {target : Interpretation} (hplain : h.coding = .none)
    (hsource : Colour.sourceSpace h = .cmyk) (hbands : 4 ≤ h.bands) :
    Colour.bandSum (Colour.converted h .xyz false) target = Colour.bandSum h target := by
  rw [Colour.bandSum, Colour.bandSum, sourceSpace_imported hplain hsource hbands,
    toNat_bands_imported hplain hsource hbands, hsource]
  exact congrArg (Colour.bandsOf target + ·) (Nat.add_sub_cancel_left ..)

/-- An import of CMYK leaves XYZ and, behind it, the bands that a conversion would. -/
theorem converted_imported {target : Interpretation} (hplain : h.coding = .none)
    (hsource : Colour.sourceSpace h = .cmyk) (hbands : 4 ≤ h.bands) :
    Colour.converted (Colour.converted h .xyz false) target sixteen =
      Colour.converted h target sixteen := by
  have hread := sourceSpace_imported hplain hsource hbands
  have hrest : 3 + (h.bands - 4) - 3 = h.bands - 4 := by
    rw [UInt32.add_comm, UInt32.add_sub_cancel]
  rw [Colour.converted, hread, Colour.converted, Colour.converted, hsource]
  exact congrArg (fun rest => { h with
    bands := target.colourBands.getD 1 + rest, format := Colour.targetFormat target sixteen,
    coding := .none, interpretation := target }) hrest

/-- Hence the import, which only CMYK goes through, can be left out where shapes are concerned. -/
theorem brought_imported (hplain : h.coding = .none) (hsource : Colour.sourceSpace h = .cmyk)
    (hbands : 4 ≤ h.bands) : brought sixteen saveable (Colour.converted h .xyz false) =
      brought sixteen saveable h := by
  simp only [brought, bandSum_imported hplain hsource hbands,
    converted_imported hplain hsource hbands]

/-- **Fitting by formula decides by the shape alone.** -/
theorem header_fitPlain (hplain : image.header.coding = .none) (hbands : 0 < image.header.bands) :
    (fitPlain sixteen saveable Colour.basic image).map Image.header =
      fitted sixteen saveable image.header := by
  have hcmyk : isCmyk image = true ↔ image.header.interpretation = .cmyk ∧
      4 ≤ image.header.bands := by
    rw [isCmyk, Bool.and_eq_true_iff, beq_iff_eq, decide_eq_true_iff,
      Header.guessInterpretation_eq_cmyk hplain]
    exact ⟨And.left, fun h => ⟨h, h.2⟩⟩
  unfold fitPlain fitted
  by_cases hgrey : saveable.mono = true ∧ image.header.bands < 3
  · rw [if_pos hgrey, if_pos (Bool.and_eq_true_iff.2 ⟨hgrey.1, decide_eq_true hgrey.2⟩)]
    rfl
  rw [if_neg hgrey, if_neg fun h => hgrey ((Bool.and_eq_true_iff.1 h).imp_right of_decide_eq_true)]
  by_cases hinked : isCmyk image = true
  · rw [if_pos hinked]
    by_cases htakes : saveable.cmyk = true
    · rw [if_pos htakes, if_pos ⟨htakes, hcmyk.1 hinked⟩]
      rfl
    · rw [if_neg htakes, if_neg fun h => htakes h.1]
      obtain ⟨hlabel, hfour⟩ := hcmyk.1 hinked
      have hsource := sourceSpace_of_cmyk hplain hlabel hfour
      obtain ⟨xyz, hconvert, hheader⟩ :=
        Colour.exists_convert image .xyz false hplain hbands rfl (bandSum_xyz hsource).2
      have himported : 0 < xyz.header.bands := by
        rw [hheader, UInt32.lt_iff_toNat_lt, toNat_bands_imported hplain hsource hfour]
        exact Nat.add_pos_left (by decide) _
      have himport : Colour.basic.importProfile image true = .ok xyz := hconvert
      have hfirst := header_firstModel sixteen saveable
        (congrArg Header.coding hheader) himported
      rw [hheader, brought_imported hplain hsource hfour] at hfirst
      rw [himport]
      exact hfirst
  · rw [if_neg hinked, if_neg fun h => hinked (hcmyk.2 h.2)]
    exact header_firstModel sixteen saveable hplain hbands

/-! ### Alpha, bands and format -/

/-- Step `alpha`, of a shape without coding. -/
def withoutAlpha (saveable : Saveable) (h : Header) : Header :=
  if h.hasAlpha = true ∧ saveable.alpha = false then { h with bands := h.bands - 1 } else h

/-- The limit that a saver of some colour models sets, `0` for none. -/
def limit (saveable : Saveable) (h : Header) : UInt32 :=
  match colourLimit h.interpretation with
  | none => 0
  | some n => if saveable.alpha then n + 1 else n

/-- Where a saver takes some models only, its limit is no sum that could overflow. -/
theorem maxBands_eq (hany : saveable.any = false) : maxBands h saveable = .ok (limit saveable h) := by
  rw [maxBands, limit, hany]
  cases h.interpretation <;> cases saveable.alpha <;> rfl

/-- Step `bands`. -/
def trimmed (saveable : Saveable) (h : Header) : Header :=
  if 0 < limit saveable h ∧ limit saveable h < h.bands then { h with bands := limit saveable h }
  else h

/-- Step `format`, of a shape without coding. -/
def promoted (table : FormatTable) (h : Header) : Header := { h with format := table h.format }

/-- The steps behind the colours. -/
def finish (saveable : Saveable) (table : FormatTable) (codings : CodingSet)
    (background : List Double) (image : Image ι) : Except Error (Image ι) :=
  dropAlpha saveable background image >>= fun flat =>
    dropBands saveable flat >>= fun trimmed => recode (promote table trimmed) codings

/-- The steps behind the colours, of a shape without coding. -/
def finished (saveable : Saveable) (table : FormatTable) (h : Header) : Header :=
  promoted table (trimmed saveable (withoutAlpha saveable h))

/-- An image without alpha, or for a saver of it, passes the step. -/
theorem dropAlpha_of_bare (background : List Double)
    (hbare : ¬(image.header.hasAlpha = true ∧ saveable.alpha = false)) :
    dropAlpha saveable background image = .ok image :=
  if_neg fun hdrop => hbare ⟨hdrop.2.1, Bool.not_eq_true' _ ▸ hdrop.2.2⟩

/-- The step takes the band from an image that it takes from the shape. -/
theorem header_dropAlpha (hplain : image.header.coding = .none)
    (hdrop : dropAlpha saveable background image = .ok out) :
    out.header = withoutAlpha saveable image.header := by
  unfold withoutAlpha
  by_cases halpha : image.header.hasAlpha = true ∧ saveable.alpha = false
  · rw [dropAlpha, if_pos ⟨hplain, halpha.1, by rw [halpha.2]; rfl⟩, Image.flatten] at hdrop
    have htwo : ¬image.header.bands < 2 := fun hless =>
      Nat.not_lt.2 (Header.two_le_of_hasAlpha halpha.1) (UInt32.lt_iff_toNat_lt.1 hless)
    rw [if_neg htwo] at hdrop
    obtain ⟨_, -, hdrop⟩ := bind_eq_ok.1 hdrop
    obtain rfl := Except.ok.inj hdrop
    rw [if_pos halpha]
    rfl
  · rw [dropAlpha_of_bare background halpha] at hdrop
    obtain rfl := Except.ok.inj hdrop
    rw [if_neg halpha]

/-- Bands that are dropped make room. -/
theorem not_crowded_dropAlpha (hflat : dropAlpha saveable background image = .ok out)
    (hroom : ¬Crowded saveable image.header) : ¬Crowded saveable out.header := by
  intro hfull
  have hbare : ¬(image.header.hasAlpha = true ∧ saveable.alpha = false) := fun hdrop =>
    Bool.false_ne_true (hdrop.2.symm.trans hfull.1)
  rw [dropAlpha_of_bare background hbare] at hflat
  obtain rfl := Except.ok.inj hflat
  exact hroom hfull

/-- One value is a background for any number of bands, and so is none. -/
theorem exists_dropAlpha (image : Image ι) (saveable : Saveable)
    (hbackground : background.length ≤ 1) :
    ∃ flat, dropAlpha saveable background image = .ok flat := by
  have hcolours : ∀ n, ∃ colours, Image.backgroundFor n background = .ok colours := by
    intro n
    match background with
    | [] => exact ⟨_, rfl⟩
    | [_] => exact ⟨_, rfl⟩
    | _ :: _ :: _ => simp at hbackground
  unfold dropAlpha Image.flatten
  split
  · dsimp only
    split
    · exact ⟨_, rfl⟩
    · obtain ⟨colours, hcolours⟩ := hcolours (image.header.bands - 1).toNat
      rw [hcolours]
      exact ⟨_, rfl⟩
  · exact ⟨_, rfl⟩

/-- Dropping bands for such a saver never fails. -/
theorem exists_dropBands (image : Image ι) (hany : saveable.any = false) :
    ∃ out, dropBands saveable image = .ok out ∧ out.header = trimmed saveable image.header := by
  rw [dropBands, maxBands_eq hany, trimmed]
  dsimp only [bind, Except.bind]
  split
  · rename_i hless
    have hsome : limit saveable image.header ≠ 0 := fun hzero => UInt32.ne_of_lt hless.1 hzero.symm
    have hend : (0 : UInt32).toNat + (limit saveable image.header).toNat
        ≤ image.header.bands.toNat := by
      rw [UInt32.toNat_zero, Nat.zero_add]
      exact Nat.le_of_lt (UInt32.lt_iff_toNat_lt.1 hless.2)
    exact ⟨_, Image.extractBands_eq_ok.2 ⟨hsome, hend, rfl⟩, image.header_extracted _ _⟩
  · exact ⟨image, rfl, rfl⟩

/-- Promoting an image promotes its shape. -/
theorem header_promote (table : FormatTable) (hplain : image.header.coding = .none) :
    (promote table image).header = promoted table image.header := by
  rw [promote, if_pos hplain]
  simp only [Image.cast]
  split
  · rename_i hsame
    rw [promoted, ← hsame]
  · rfl

/-- What comes out without a coding was not recoded. -/
theorem eq_of_recode (hplain : image.header.coding = .none) (hout : out.header.coding = .none)
    (hrecode : recode image codings = .ok out) : out = image := by
  cases haccepts : codings.accepts image.header.coding with
  | true =>
    rw [recode, if_pos haccepts] at hrecode
    exact (Except.ok.inj hrecode).symm
  | false =>
    obtain ⟨plain, hdecode, ⟨-, hpack⟩ | ⟨-, hpack⟩ | ⟨-, -, rfl⟩⟩ :=
      recode_refused haccepts hrecode
    · cases hout.symm.trans (Image.keeps_labToLabq hpack).coding
    · cases hout.symm.trans (Image.keeps_floatToRad hpack).coding
    · rw [Image.decode_of_plain hplain] at hdecode
      exact (Except.ok.inj hdecode).symm

/-- What is not packed passes where that is accepted. -/
theorem recode_of_plain (hcodings : codings.plain = true) (hplain : image.header.coding = .none) :
    recode image codings = .ok image := by
  have haccepts : codings.accepts image.header.coding = true := by
    rw [hplain]
    exact hcodings
  rw [recode, if_pos haccepts]
  rfl

/-- What was packed has three bands, and these can be packed again. -/
theorem exists_recode_of_coded (codings : CodingSet) (hcoded : image.header.coding ≠ .none) :
    ∃ out, recode image codings = .ok out := by
  unfold recode
  split
  · exact ⟨image, rfl⟩
  obtain ⟨plain, hdecode⟩ := image.exists_decode
  have hplain := (Image.keeps_decode hdecode).coding
  have hbands : ¬plain.header.bands < 3 := by
    rw [Image.bands_of_decode hcoded hdecode]
    exact UInt32.lt_irrefl 3
  rw [hdecode]
  show ∃ out, (if codings.labq then plain.labToLabq else
    if codings.rad then plain.floatToRad else pure plain) = .ok out
  split
  · exact ⟨_, bind_eq_ok.2 ⟨(), if_pos hplain, if_neg hbands⟩⟩
  · split
    · exact ⟨_, bind_eq_ok.2 ⟨(), if_pos hplain, if_neg hbands⟩⟩
    · exact ⟨plain, rfl⟩

/-- The steps behind the colours lead an image where they lead its shape. -/
theorem header_finish (hany : saveable.any = false) (hplain : image.header.coding = .none)
    (hout : out.header.coding = .none)
    (hfinish : finish saveable table codings background image = .ok out) :
    out.header = finished saveable table image.header := by
  obtain ⟨flat, hflat, hfinish⟩ := bind_eq_ok.1 hfinish
  obtain ⟨cut, hcut, hfinish⟩ := bind_eq_ok.1 hfinish
  have hflatCoding := (keeps_dropAlpha hflat).coding.trans hplain
  have hcutCoding := (keeps_dropBands hcut).coding.trans hflatCoding
  have hpromoted := (keeps_promote table cut).coding.trans hcutCoding
  obtain ⟨same, hsame, hheader⟩ := exists_dropBands flat hany
  obtain rfl := Except.ok.inj (hsame.symm.trans hcut)
  rw [eq_of_recode hpromoted hout hfinish, header_promote table hcutCoding, hheader,
    header_dropAlpha hplain hflat, finished]

/-- And none of them fails on a background of one value. -/
theorem exists_finish (hany : saveable.any = false) (hcodings : codings.plain = true)
    (hbackground : background.length ≤ 1) (hplain : image.header.coding = .none) :
    ∃ out, finish saveable table codings background image = .ok out ∧
      out.header = finished saveable table image.header := by
  obtain ⟨flat, hflat⟩ := exists_dropAlpha image saveable hbackground
  obtain ⟨cut, hcut, -⟩ := exists_dropBands flat hany
  have hflatCoding := (keeps_dropAlpha hflat).coding.trans hplain
  have hcutCoding := (keeps_dropBands hcut).coding.trans hflatCoding
  have hpromoted := (keeps_promote table cut).coding.trans hcutCoding
  have hfinish : finish saveable table codings background image = .ok (promote table cut) :=
    bind_eq_ok.2 ⟨flat, hflat, bind_eq_ok.2 ⟨cut, hcut, recode_of_plain hcodings hpromoted⟩⟩
  exact ⟨_, hfinish, header_finish hany hplain hpromoted hfinish⟩

/-! ### All steps -/

/-- The shape that an image is brought to. -/
def shape (saveable : Saveable) (table : FormatTable) (h : Header) : Except Error Header :=
  (fitted (h.format == .ushort) saveable (unpacked h)).map (finished saveable table)

/-- So does the colour step, errors included. -/
theorem header_fitColour (hany : saveable.any = false) (hbands : 0 < image.header.bands) :
    (fitColour image saveable Colour.basic).map Image.header =
      fitted (image.header.format == .ushort) saveable (unpacked image.header) := by
  obtain ⟨plain, hunpack, hheader⟩ := exists_unpack image
  rw [fitColour_eq hany, hunpack, ← hheader]
  refine header_fitPlain ?_ ?_
  · rw [hheader, coding_unpacked]
  · rw [hheader]
    exact bands_unpacked_pos hbands

/-- All steps in a row, where the image does not pass as it is. -/
theorem convertSaveable_eq_finish {colour : ColourEngine ι} (hany : saveable.any = false)
    (hcoded : ¬(image.header.coding ≠ .none ∧ codings.accepts image.header.coding = true)) :
    convertSaveable image saveable table codings background colour =
      fitColour image saveable colour >>= finish saveable table codings background :=
  convertSaveable_eq hcoded fun hpass => Bool.false_ne_true (hany.symm.trans hpass.2.1)

/-- **An uncoded result has the shape that its image is brought to.** -/
theorem header_of_convertSaveable (hany : saveable.any = false) (hbands : 0 < image.header.bands)
    (hout : out.header.coding = .none)
    (h : convertSaveable image saveable table codings background Colour.basic = .ok out) :
    shape saveable table image.header = .ok out.header := by
  by_cases hcoded : image.header.coding ≠ .none ∧ codings.accepts image.header.coding = true
  · rw [convertSaveable, if_pos hcoded] at h
    obtain rfl := Except.ok.inj h
    exact absurd hout hcoded.1
  · rw [convertSaveable_eq_finish hany hcoded] at h
    obtain ⟨fit, hfit, hfinish⟩ := bind_eq_ok.1 h
    have hplain := (keeps_fitColour Colour.keeps_basic hany hfit).coding
    rw [shape, ← header_fitColour hany hbands, hfit, header_finish hany hplain hout hfinish]
    rfl

/-- **A saver of plain samples gets an image wherever there is a shape for it.** -/
theorem header_convertSaveable (table : FormatTable) (hany : saveable.any = false)
    (hbands : 0 < image.header.bands) (hcodings : codings.plain = true)
    (hbackground : background.length ≤ 1)
    (hcoded : ¬(image.header.coding ≠ .none ∧ codings.accepts image.header.coding = true)) :
    (convertSaveable image saveable table codings background Colour.basic).map Image.header =
      shape saveable table image.header := by
  rw [convertSaveable_eq_finish hany hcoded, shape, ← header_fitColour hany hbands]
  refine map_bind_of_ok fun fit hfit => ?_
  have hplain := (keeps_fitColour Colour.keeps_basic hany hfit).coding
  exact exists_finish hany hcodings hbackground hplain

/-! ### What can be fitted -/

/-- Where an image does not pass to a saver that takes anything, the saver's limit has to be a
word. -/
theorem convertSaveable_crowded {colour : ColourEngine ι} (hany : saveable.any = true)
    (hcoded : ¬(image.header.coding ≠ .none ∧ codings.accepts image.header.coding = true))
    (hsame : ¬(image.header.coding = .none ∧ table image.header.format = image.header.format))
    (hfull : Crowded saveable image.header) :
    convertSaveable image saveable table codings background colour = .error .overflow := by
  have hbare : ¬(image.header.hasAlpha = true ∧ saveable.alpha = false) := fun hdrop =>
    Bool.false_ne_true (hdrop.2.symm.trans hfull.1)
  rw [convertSaveable_eq_any hany hcoded hsame, dropAlpha_of_bare background hbare]
  show (dropBands saveable image >>= fun cut => recode (promote table cut) codings) = _
  rw [dropBands_crowded hany hfull]
  rfl

/-- Then it gets an image of any shape. -/
theorem exists_convertSaveable_any {colour : ColourEngine ι} (image : Image ι)
    (hany : saveable.any = true) (hcodings : codings.plain = true)
    (hbackground : background.length ≤ 1)
    (hcoded : ¬(image.header.coding ≠ .none ∧ codings.accepts image.header.coding = true))
    (hsame : ¬(image.header.coding = .none ∧ table image.header.format = image.header.format))
    (hroom : ¬Crowded saveable image.header) :
    ∃ out, convertSaveable image saveable table codings background colour = .ok out := by
  rw [convertSaveable_eq_any hany hcoded hsame]
  by_cases hplain : image.header.coding = .none
  · obtain ⟨flat, hflat⟩ := exists_dropAlpha image saveable hbackground
    have hcut := dropBands_any hany (not_crowded_dropAlpha hflat hroom)
    have hpromoted := (keeps_promote table flat).coding.trans
      ((keeps_dropAlpha hflat).coding.trans hplain)
    exact ⟨_, bind_eq_ok.2 ⟨flat, hflat,
      bind_eq_ok.2 ⟨flat, hcut, recode_of_plain hcodings hpromoted⟩⟩⟩
  · obtain ⟨out, hrecode⟩ := exists_recode_of_coded codings hplain
    refine ⟨out, bind_eq_ok.2 ⟨image, dropAlpha_coded hplain,
      bind_eq_ok.2 ⟨image, dropBands_any hany hroom, ?_⟩⟩⟩
    rw [promote_coded table hplain]
    exact hrecode

/-- Whether a saver takes anything, some colour model, or the coding that an image is in. -/
def Takes (saveable : Saveable) (codings : CodingSet) (h : Header) : Prop :=
  (saveable.any = true ∨ saveable.mono = true ∨ saveable.rgb = true ∨ saveable.cmyk = true) ∨
    h.coding ≠ .none ∧ codings.accepts h.coding = true

/-- Whether an image that does not pass has so many bands that no word counts those it is to get,
or the limit of a saver that takes anything. -/
def Overflows (saveable : Saveable) (table : FormatTable) (codings : CodingSet) (h : Header) :
    Prop :=
  ¬(h.coding ≠ .none ∧ codings.accepts h.coding = true) ∧
    (saveable.any = true ∧ ¬(h.coding = .none ∧ table h.format = h.format) ∧ Crowded saveable h ∨
      saveable.any = false ∧ Overfull (h.format == .ushort) saveable (unpacked h))

/-- That is at most three bands short of what a word counts. -/
theorem le_bands_of_overfull (hplain : h.coding = .none) (hbands : 0 < h.bands)
    (hfull : Overfull sixteen saveable h) : UInt32.size ≤ h.bands.toNat + 3 := by
  obtain ⟨-, -, target, -, hsum⟩ := hfull
  have hsource := Header.bandsOf_sourceSpace_le hplain hbands
  have hfirst := (Colour.bandsOf_bounds (Colour.sourceSpace h)).1
  have hmodel := (Colour.bandsOf_bounds target).2
  unfold Colour.bandSum at hsum
  omega

/-- **Only a number of bands next to the greatest word overflows.** -/
theorem le_bands_of_overflows (hbands : 0 < h.bands) (hfull : Overflows saveable table codings h) :
    UInt32.size ≤ h.bands.toNat + 3 := by
  obtain ⟨-, ⟨-, -, hfull⟩ | ⟨-, hfull⟩⟩ := hfull
  · exact Nat.le_trans hfull.2 (Nat.add_le_add_left (by decide) _)
  · by_cases hplain : h.coding = .none
    · rw [unpacked_of_plain hplain] at hfull
      exact le_bands_of_overfull hplain hbands hfull
    · have hmany := le_bands_of_overfull (coding_unpacked h) (bands_unpacked_pos hbands) hfull
      rw [bands_unpacked hplain] at hmany
      exact absurd hmany (by decide)

/-- **Every image can be fitted to a saver that takes something for it**, and to no other, which
refuses it for the missing colour model. Only images of almost `2 ^ 32` bands fail where the numbers
of bands are added. -/
theorem convertSaveable_convertible (image : Image ι) (saveable : Saveable) (table : FormatTable)
    (codings : CodingSet) (background : List Double) (hbands : 0 < image.header.bands)
    (hcodings : codings.plain = true) (hbackground : background.length ≤ 1) :
    (Takes saveable codings image.header → ¬Overflows saveable table codings image.header →
        ∃ out, convertSaveable image saveable table codings background Colour.basic = .ok out) ∧
      (Overflows saveable table codings image.header →
        convertSaveable image saveable table codings background Colour.basic = .error .overflow ∧
          UInt32.size ≤ image.header.bands.toNat + 3) ∧
      (¬Takes saveable codings image.header →
        convertSaveable image saveable table codings background Colour.basic =
          .error .unsupportedOutputModel) := by
  by_cases hcoded : image.header.coding ≠ .none ∧ codings.accepts image.header.coding = true
  · exact ⟨fun _ _ => ⟨image, if_pos hcoded⟩, fun hfull => absurd hcoded hfull.1,
      fun hnone => absurd (.inr hcoded) hnone⟩
  by_cases hany : saveable.any = true
  · refine ⟨fun _ hroom => ?_, fun hfull => ⟨?_, le_bands_of_overflows hbands hfull⟩,
      fun hnone => absurd (.inl (.inl hany)) hnone⟩
    · by_cases hsame : image.header.coding = .none ∧
          table image.header.format = image.header.format
      · exact ⟨image, (if_neg hcoded).trans (if_pos ⟨hsame.1, hany, hsame.2⟩)⟩
      · exact exists_convertSaveable_any image hany hcodings hbackground hcoded hsame
          fun hfull => hroom ⟨hcoded, .inl ⟨hany, hsame, hfull⟩⟩
    · obtain ⟨-, ⟨-, hsame, hfull⟩ | ⟨hno, -⟩⟩ := hfull
      · exact convertSaveable_crowded hany hcoded hsame hfull
      · exact absurd (hno.symm.trans hany) Bool.false_ne_true
  have hno := eq_false_of_ne_true hany
  have hheader := header_convertSaveable table hno hbands hcodings hbackground hcoded
  refine ⟨fun htakes hroom => ?_, fun hfull => ⟨?_, le_bands_of_overflows hbands hfull⟩,
    fun hnone => ?_⟩
  · have hmodel := (htakes.resolve_right hcoded).resolve_left hany
    obtain ⟨fit, hfit⟩ := exists_fitted (image.header.format == .ushort) (unpacked image.header)
      hmodel fun hfull => hroom ⟨hcoded, .inr ⟨hno, hfull⟩⟩
    rw [shape, hfit] at hheader
    obtain ⟨out, hout, -⟩ := map_eq_ok.1 hheader
    exact ⟨out, hout⟩
  · obtain ⟨-, ⟨htakes, -⟩ | ⟨-, hfull⟩⟩ := hfull
    · exact absurd htakes hany
    · rw [shape, fitted_of_overfull hfull] at hheader
      exact map_eq_error hheader
  · rw [shape, fitted_of_no_model fun hmodel => hnone (.inl (.inr hmodel))] at hheader
    exact map_eq_error hheader

/-- Five 16-bit bands become CMYK, and a saver that writes nothing but alpha refuses them. -/
theorem convertSaveable_convertible_five :
    let image : Image Empty :=
      { header :=
          { width := 2, height := 3, bands := 5, format := .ushort, interpretation := .multiband }
        source := .direct { origin := 0 } fun _ _ => .ok [] }
    (∃ out, convertSaveable image { cmyk := true } .allUchar .plainOnly [.one] Colour.basic
        = .ok out) ∧
      convertSaveable image { alpha := true } .allUchar .plainOnly [.one] Colour.basic
        = .error .unsupportedOutputModel := by
  intro image
  have hbands : 0 < image.header.bands := by decide
  refine ⟨(convertSaveable_convertible image _ _ _ _ hbands rfl (by decide)).1 ?_ ?_,
    (convertSaveable_convertible image _ _ _ _ hbands rfl (by decide)).2.2 ?_⟩
  · exact .inl (.inr (.inr (.inr rfl)))
  · exact fun hfull => absurd (le_bands_of_overflows hbands hfull) (by decide)
  · rintro ((hany | hmono | hrgb | hcmyk) | ⟨hcoded, -⟩)
    · cases hany
    · cases hmono
    · cases hrgb
    · cases hcmyk
    · exact hcoded rfl

/-- **What cannot be fitted all the same:** grey of as many bands as a word can count, whose RGB has
two more. -/
theorem convertSaveable_overflow :
    let image : Image Empty :=
      { header :=
          { width := 0, height := 0, bands := 4294967295, format := .uchar, interpretation := .bw }
        source := .direct { origin := 0 } fun _ _ => .ok [] }
    Takes { rgb := true } .plainOnly image.header ∧
      convertSaveable image { rgb := true } .allUchar .plainOnly [] Colour.basic =
        .error .overflow := by
  intro image
  have hrun : (convertSaveable image { rgb := true } .allUchar .plainOnly [] Colour.basic).map
      (fun out => out.header.bands) = .error .overflow := by decide +kernel
  exact ⟨.inl (.inr (.inr (.inl rfl))), map_eq_error hrun⟩

end Normalize

end Raster
