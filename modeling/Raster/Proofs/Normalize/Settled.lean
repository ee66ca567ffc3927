/-
# Fitting twice

What a saver of RGB got once, it gets again: the second time every step finds nothing to
do, but for a change of the label. So the shapes are described that fitting leaves alone
(`Settled`), and results shown to be of such a shape.

| result | second time | why |
| --- | --- | --- |
| grey of one band or two | passes step `colour` | fewer than three bands |
| RGB in the format of its space | is relabelled | it is in that space by now |
| 16-bit RGB cast to eight bits | is relabelled | its label does not fit, and the guess is RGB |

A saver without alpha gets a pair of bands that is not taken for alpha, and this may not
change with the format: it does for complex samples, which are left out.
-/
import Raster.Codec.Handler
import Raster.Proofs.Normalize.Bands

namespace Raster

namespace Colour

/-- RGB of a depth. -/
def rgbOf (sixteen : Bool) : Interpretation := if sixteen then .rgb16 else .srgb

/-- RGB has three bands in both depths. -/
theorem colourBands_rgbOf (sixteen : Bool) : (rgbOf sixteen).colourBands.getD 1 = 3 := by
  cases sixteen <;> rfl

end Colour

namespace Header

variable {h : Header}

/-- Two bands that are not taken for alpha are declared to be something that is no colour. -/
theorem interpretation_of_bare_pair (hplain : h.coding = .none) (hbands : h.bands = 2)
    (hformat : h.format.isComplex = false) (hbare : h.hasAlpha = false) :
    h.interpretation = .multiband ∨
      h.interpretation = .histogram ∧ h.interpretationFits = true := by
  have hguess : ¬(h.guessInterpretation = .bw ∨ h.guessInterpretation = .grey16) := fun hgrey =>
    Bool.false_ne_true (hbare.symm.trans (hasAlpha_iff.2 (.inl ⟨hbands, hgrey⟩)))
  cases hfits : h.interpretationFits with
  | false =>
    rw [guessInterpretation_of_not_fits hfits, defaultInterpretation, hplain, hformat,
      hbands] at hguess
    cases hsixteen : h.format.is16Bit <;> rw [hsixteen] at hguess
    · exact absurd (.inl rfl) hguess
    · exact absurd (.inr rfl) hguess
  | true =>
    rw [guessInterpretation_of_fits hfits] at hguess
    rw [interpretationFits, hplain, hbands] at hfits
    cases hlabel : h.interpretation with
    | multiband => exact .inl rfl
    | histogram => exact .inr ⟨rfl, rfl⟩
    | bw => exact absurd (.inl hlabel) hguess
    | grey16 => exact absurd (.inr hlabel) hguess
    | fourier =>
      rw [hlabel, hformat] at hfits
      cases hfits
    | matrix | cmyk | labq | lch | cmc | yxy | hsv | rgb | srgb =>
      rw [hlabel] at hfits
      cases hfits
    | scrgb | xyz | lab =>
      rw [hlabel] at hfits
      cases (Bool.and_eq_true_iff.1 hfits).1
    | labs | rgb16 =>
      rw [hlabel] at hfits
      cases (Bool.and_eq_true_iff.1 hfits).2

/-- Another format does not make alpha of it. -/
theorem hasAlpha_bare_pair (hplain : h.coding = .none) (hbands : h.bands = 2)
    (hformat : h.format.isComplex = false) (hbare : h.hasAlpha = false) (f : BandFormat) :
    ({ h with format := f } : Header).hasAlpha = false := by
  have hguess : ({ h with format := f } : Header).guessInterpretation = h.interpretation := by
    refine guessInterpretation_of_fits ?_
    rcases interpretation_of_bare_pair hplain hbands hformat hbare with hlabel | ⟨hlabel, hfits⟩
    · simp [interpretationFits, hplain, hlabel]
    · rw [interpretationFits, hplain, hlabel] at hfits
      simpa [interpretationFits, hplain, hlabel] using hfits
  unfold hasAlpha
  rw [hguess]
  rcases interpretation_of_bare_pair hplain hbands hformat hbare with hlabel | ⟨hlabel, -⟩ <;>
    simp [hbands, hlabel]

end Header

namespace Normalize

variable {ι : Type} {image out : Image ι} {saveable : Saveable} {codings : CodingSet}
  {table : FormatTable} {background : List Double} {sixteen : Bool} {h : Header}
  {target : Interpretation}

/-! ### Nothing to do -/

/-- A shape that the steps behind the colours leave alone. -/
structure Done (saveable : Saveable) (table : FormatTable) (h : Header) : Prop where
  alpha : ¬(h.hasAlpha = true ∧ saveable.alpha = false)
  bands : ¬(0 < limit saveable h ∧ limit saveable h < h.bands)
  format : table h.format = h.format

/-- Nothing is done to a shape that is done. -/
theorem finish_of_done (hany : saveable.any = false) (hplain : image.header.coding = .none)
    (hcodings : codings.plain = true) (hdone : Done saveable table image.header) :
    finish saveable table codings background image = .ok image := by
  have hflat := dropAlpha_of_bare background hdone.alpha
  have hcut : dropBands saveable image = .ok image := by
    rw [dropBands, maxBands_eq hany]
    exact if_neg hdone.bands
  have hcast : promote table image = image := by
    rw [promote, if_pos hplain]
    exact if_pos hdone.format.symm
  refine bind_eq_ok.2 ⟨image, hflat, bind_eq_ok.2 ⟨image, hcut, ?_⟩⟩
  rw [hcast]
  exact recode_of_plain hcodings hplain

/-- A shape that fitting leaves alone, but for its label. -/
inductive Settled (saveable : Saveable) (table : FormatTable) (h : Header) : Prop
  | grey (mono : saveable.mono = true) (few : h.bands < 3) (done : Done saveable table h)
  | colour (target : Interpretation) (many : 3 ≤ h.bands) (label : h.interpretation ≠ .cmyk)
      (first : model saveable (h.format == .ushort) = some target)
      (source : Colour.sourceSpace h = target)
      (format : h.format = Colour.targetFormat target (h.format == .ushort))
      (done : Done saveable table { h with interpretation := target })

/-- **What is settled is fitted without a change to its pixels.** -/
theorem convertSaveable_of_settled (codings : CodingSet) (background : List Double)
    (hany : saveable.any = false) (hplain : image.header.coding = .none)
    (hcodings : codings.plain = true) (hsettled : Settled saveable table image.header) :
    ∃ interpretation, convertSaveable image saveable table codings background Colour.basic =
      .ok (image.withInterpretation interpretation) := by
  have hunpack : unpack image Colour.basic = .ok image := by rw [unpack, hplain]
  rw [convertSaveable_eq_finish hany fun hcoded => hcoded.1 hplain, fitColour_eq hany, hunpack]
  cases hsettled with
  | grey hmono hfew hdone =>
    have hfit : fitPlain (image.header.format == .ushort) saveable Colour.basic image = .ok image :=
      if_pos (Bool.and_eq_true_iff.2 ⟨hmono, decide_eq_true hfew⟩)
    exact ⟨image.header.interpretation,
      bind_eq_ok.2 ⟨image, hfit, finish_of_done hany hplain hcodings hdone⟩⟩
  | colour target hmany hlabel hfirst hsource hformat hdone =>
    have hgrey : ¬(saveable.mono && decide (image.header.bands < 3)) = true := fun hless =>
      UInt32.not_lt.2 hmany (of_decide_eq_true (Bool.and_eq_true_iff.1 hless).2)
    have hinked : ¬isCmyk image = true := fun hcmyk => by
      rw [isCmyk, Bool.and_eq_true_iff, beq_iff_eq] at hcmyk
      exact hlabel ((Header.guessInterpretation_eq_cmyk hplain).1 hcmyk.1).1
    have hfit : fitPlain (image.header.format == .ushort) saveable Colour.basic image =
        .ok (image.withInterpretation target) := by
      rw [fitPlain, if_neg hgrey, if_neg hinked, firstModel_basic, hfirst]
      exact Colour.convert_relabel hplain (supports_model hfirst) hsource hformat
    exact ⟨target, bind_eq_ok.2 ⟨_, hfit, finish_of_done hany hplain hcodings hdone⟩⟩

/-! ### Results -/

/-- A saver of RGB that takes the formats of RGB as they are, or in eight bits. -/
structure Regular (saveable : Saveable) (table : FormatTable) : Prop where
  any : saveable.any = false
  rgb : saveable.rgb = true
  cmyk : saveable.cmyk = false
  table_table : ∀ f, table (table f) = table f
  uchar : table .uchar = .uchar
  ushort : table .ushort = .uchar ∨ table .ushort = .ushort

/-- **Every codec is a regular saver.** -/
theorem regular_codec (codec : Codec) : Regular codec.saveable codec.table := by
  cases codec with
  | png | tiff => exact ⟨rfl, rfl, rfl, fun f => by cases f <;> rfl, rfl, .inr rfl⟩
  | jpeg | webp => exact ⟨rfl, rfl, rfl, fun _ => rfl, rfl, .inl rfl⟩

/-- The limit depends on the label alone. -/
theorem limit_congr {h' : Header} (hlabel : h'.interpretation = h.interpretation) :
    limit saveable h' = limit saveable h := by
  rw [limit, limit, hlabel]

/-- A trimmed shape has no band too many. -/
theorem surplus_trimmed :
    ¬(0 < limit saveable (trimmed saveable h) ∧
      limit saveable (trimmed saveable h) < (trimmed saveable h).bands) := by
  have hlimit : limit saveable (trimmed saveable h) = limit saveable h := by
    refine limit_congr ?_
    unfold trimmed
    split <;> rfl
  rw [hlimit]
  unfold trimmed
  split
  · exact fun hmost => UInt32.lt_irrefl _ hmost.2
  · assumption

/-- Of what the steps behind the colours do, only the first one could be repeated. -/
theorem done_finished (hregular : Regular saveable table)
    (halpha : ¬((finished saveable table h).hasAlpha = true ∧ saveable.alpha = false)) :
    Done saveable table (finished saveable table h) := by
  have hlimit : limit saveable (finished saveable table h) =
      limit saveable (trimmed saveable (withoutAlpha saveable h)) := limit_congr rfl
  refine ⟨halpha, ?_, hregular.table_table _⟩
  rw [hlimit]
  exact surplus_trimmed

/-- Few bands without alpha that the saver does not take pass a second time. -/
theorem settled_grey (hregular : Regular saveable table) (hmono : saveable.mono = true)
    (hfew : (finished saveable table h).bands < 3)
    (hbare : saveable.alpha = false → (finished saveable table h).hasAlpha = false) :
    Settled saveable table (finished saveable table h) :=
  .grey hmono hfew (done_finished hregular fun hlast =>
    Bool.false_ne_true ((hbare hlast.2).symm.trans hlast.1))

/-- So does a single band. -/
theorem settled_of_le_one (hregular : Regular saveable table) (hmono : saveable.mono = true)
    (hbands : h.bands ≤ 1) : Settled saveable table (finished saveable table h) := by
  have hkept : (finished saveable table h).bands = h.bands := by
    rw [finished_of_le_one hbands]
    rfl
  refine settled_grey hregular hmono ?_ fun _ => eq_false_of_ne_true fun hlast => ?_
  · exact hkept ▸ UInt32.lt_of_le_of_lt hbands (by decide)
  · have htwo := Header.two_le_of_hasAlpha hlast
    rw [hkept] at htwo
    exact Nat.not_lt.2 (UInt32.le_iff_toNat_le.1 hbands) htwo

/-- Two bands end as one, or as a pair that is no alpha in the new format either. -/
theorem settled_pair (hregular : Regular saveable table) (hmono : saveable.mono = true)
    (hplain : h.coding = .none) (hbands : h.bands = 2) (hformat : h.format.isComplex = false) :
    Settled saveable table (finished saveable table h) := by
  cases halpha : saveable.alpha with
  | true =>
    have hkept := bands_finished_two table hbands halpha
    refine settled_grey hregular hmono (by rw [hkept]; decide) fun hno => ?_
    exact absurd (hno.symm.trans halpha) Bool.false_ne_true
  | false =>
    by_cases hlast : h.hasAlpha = true ∨ h.interpretation = .grey16
    · have hone := bands_finished_dropped table hbands halpha hlast
      exact settled_grey hregular hmono (by rw [hone]; decide) fun _ =>
        Header.hasAlpha_of_odd (.inr (.inl hone))
    · obtain ⟨hbare, hlabel⟩ := not_or.1 hlast
      have hbare := eq_false_of_ne_true hbare
      have hkept := finished_bare_pair table hplain hbands halpha hbare hlabel
      refine settled_grey hregular hmono ?_ fun _ => ?_
      · rw [hkept]
        exact hbands ▸ (by decide : (2 : UInt32) < 3)
      · rw [hkept]
        exact Header.hasAlpha_bare_pair hplain hbands hformat hbare (table h.format)

/-- The last format is that of the table. -/
theorem format_finished : (finished saveable table h).format = table h.format := by
  unfold finished promoted trimmed withoutAlpha
  split_ifs <;> rfl

/-- A regular saver takes RGB of both depths. -/
theorem Regular.offers (hregular : Regular saveable table) (sixteen : Bool) :
    saveable.Offers (Colour.rgbOf sixteen) := by
  cases sixteen <;> exact hregular.rgb

/-- And brings everything to it. -/
theorem Regular.model (hregular : Regular saveable table) (sixteen : Bool) :
    model saveable sixteen = some (Colour.rgbOf sixteen) := if_pos hregular.rgb

/-- RGB as a table leaves it: a 16-bit label may stand on eight bits. -/
structure IsRgb (saveable : Saveable) (h : Header) : Prop where
  plain : h.coding = .none
  bands : h.bands = 3 ∨ saveable.alpha = true ∧ h.bands = 4
  depth : h.format = .uchar ∧ (h.interpretation = .srgb ∨ h.interpretation = .rgb16) ∨
    h.format = .ushort ∧ h.interpretation = .rgb16

/-- It is read in the RGB of its format. -/
theorem IsRgb.sourceSpace (hrgb : IsRgb saveable h) :
    Colour.sourceSpace h = Colour.rgbOf (h.format == .ushort) := by
  obtain ⟨width, height, bands, format, coding, interpretation, xres, yres⟩ := h
  obtain ⟨hplain, hbands, hdepth⟩ := hrgb
  obtain rfl : coding = .none := hplain
  rcases hdepth with ⟨hformat, hlabel | hlabel⟩ | ⟨hformat, hlabel⟩ <;>
    obtain rfl := hformat <;> obtain rfl := hlabel <;>
    rcases hbands with hbands | ⟨-, hbands⟩ <;> obtain rfl := hbands <;> rfl

/-- Nothing is left to do, whatever label of RGB it gets. -/
theorem IsRgb.done (hrgb : IsRgb saveable h) (hregular : Regular saveable table)
    (htable : table h.format = h.format) (sixteen : Bool) :
    Done saveable table { h with interpretation := Colour.rgbOf sixteen } := by
  have hlimit := limit_of_offers (h := { h with interpretation := Colour.rgbOf sixteen })
    (hregular.offers sixteen) rfl
  rw [Colour.colourBands_rgbOf] at hlimit
  refine ⟨fun hlast => ?_, ?_, htable⟩
  · rcases hrgb.bands with hthree | ⟨halpha, -⟩
    · have hbare := Header.hasAlpha_of_odd
        (h := { h with interpretation := Colour.rgbOf sixteen }) (.inr (.inr hthree))
      exact Bool.false_ne_true (hbare.symm.trans hlast.1)
    · exact Bool.false_ne_true (hlast.2.symm.trans halpha)
  · rw [hlimit]
    rcases hrgb.bands with hthree | ⟨halpha, hfour⟩
    · cases saveable.alpha <;> simp only [hthree] <;> decide
    · simp only [halpha, hfour]
      decide

/-- RGB passes a second time, relabelled at most. -/
theorem IsRgb.settled (hrgb : IsRgb saveable h) (hregular : Regular saveable table)
    (htable : table h.format = h.format) : Settled saveable table h := by
  refine .colour _ ?_ ?_ (hregular.model _) hrgb.sourceSpace ?_ (hrgb.done hregular htable _)
  · rcases hrgb.bands with hthree | ⟨-, hfour⟩
    · exact UInt32.le_of_eq hthree.symm
    · rw [hfour]
      decide
  · rcases hrgb.depth with ⟨-, hlabel | hlabel⟩ | ⟨-, hlabel⟩ <;> rw [hlabel] <;> decide
  · rcases hrgb.depth with ⟨hnarrow, -⟩ | ⟨hwide, -⟩
    · rw [hnarrow]
      rfl
    · rw [hwide]
      rfl

/-- **A conversion to RGB of either depth ends as RGB.** -/
theorem isRgb_finished (hregular : Regular saveable table) (hplain : h.coding = .none)
    (hbands : 0 < h.bands) (hsum : Colour.bandSum h (Colour.rgbOf sixteen) < UInt32.size) :
    IsRgb saveable
      (finished saveable table (Colour.converted h (Colour.rgbOf sixteen) sixteen)) := by
  have hmodelled := modelled_converted sixteen (hregular.offers sixteen) hplain hbands hsum
  refine ⟨coding_finished saveable table hmodelled.plain, ?_, ?_⟩
  · have hcases := hmodelled.bands_finished table
    rw [Colour.colourBands_rgbOf] at hcases
    exact hcases
  · rw [format_finished, interpretation_finished]
    cases sixteen with
    | false => exact .inl ⟨hregular.uchar, .inl rfl⟩
    | true =>
      rcases hregular.ushort with hnarrow | hwide
      · exact .inl ⟨hnarrow, .inr rfl⟩
      · exact .inr ⟨hwide, rfl⟩

/-- A saver of RGB gets grey of one band or two, or a conversion to RGB. -/
theorem Regular.fitted_cases {fit : Header} (hregular : Regular saveable table)
    (hfit : fitted sixteen saveable h = .ok fit) :
    (saveable.mono = true ∧ h.bands < 3 ∧ fit = h) ∨
      Colour.bandSum h (Colour.rgbOf sixteen) < UInt32.size ∧
        fit = Colour.converted h (Colour.rgbOf sixteen) sixteen := by
  unfold fitted at hfit
  split_ifs at hfit with hgrey hinked
  · exact .inl ⟨hgrey.1, hgrey.2, (Except.ok.inj hfit).symm⟩
  · exact absurd (hregular.cmyk.symm.trans hinked.1) Bool.false_ne_true
  · obtain ⟨target, hmodel, hsum, rfl⟩ := brought_eq_ok.1 hfit
    obtain rfl := Option.some.inj ((hregular.model sixteen).symm.trans hmodel)
    exact .inr ⟨hsum, rfl⟩

/-- **What a saver of RGB got is settled.** -/
theorem settled_of_shape {out : Header} (hregular : Regular saveable table)
    (hbands : 0 < h.bands) (hformat : h.format.isComplex = false)
    (hout : shape saveable table h = .ok out) : Settled saveable table out := by
  obtain ⟨fit, hfit, rfl⟩ := map_eq_ok.1 hout
  rcases hregular.fitted_cases hfit with ⟨hmono, hless, rfl⟩ | ⟨hsum, rfl⟩
  · have hplain := plain_of_few hless
    rw [unpacked_of_plain hplain] at hless ⊢
    rcases one_or_two hbands hless with hone | htwo
    · exact settled_of_le_one hregular hmono (UInt32.le_of_eq hone)
    · exact settled_pair hregular hmono hplain htwo hformat
  · have hrgb := isRgb_finished hregular (coding_unpacked h) (bands_unpacked_pos hbands) hsum
    exact hrgb.settled hregular (hregular.table_table _)

/-- **What a codec's saver got, it gets again with every pixel unchanged.** -/
theorem convertSaveable_twice (codec : Codec) (io : IoKind) (image : Image ι)
    (background : List Double) (hbands : 0 < image.header.bands)
    (hformat : image.header.format.isComplex = false) (out : Image ι)
    (h : convertSaveable image (codec.saverDescriptor io).saveable (codec.saverDescriptor io).table
      (codec.saverDescriptor io).codings background Colour.basic = .ok out) :
    ∃ again, convertSaveable out (codec.saverDescriptor io).saveable
        (codec.saverDescriptor io).table (codec.saverDescriptor io).codings background Colour.basic
          = .ok again ∧
      again.header.bands = out.header.bands ∧ again.header.format = out.header.format ∧
      again.header.coding = out.header.coding ∧ again.source = out.source := by
  have hregular := regular_codec codec
  have hcodings : (codec.saverDescriptor io).codings = .plainOnly := rfl
  rw [hcodings] at h ⊢
  have hplain : out.header.coding = .none := by
    have haccepted :=
      (conforms_of_convertSaveable Colour.keeps_basic hregular.any ⟨.none, rfl⟩ h).accepted
    cases hcoding : out.header.coding with
    | none => rfl
    | labq | rad =>
      rw [hcoding] at haccepted
      cases haccepted
  have hsettled := settled_of_shape hregular hbands hformat
    (header_of_convertSaveable hregular.any hbands hplain h)
  obtain ⟨interpretation, hagain⟩ :=
    convertSaveable_of_settled .plainOnly background hregular.any hplain rfl hsettled
  exact ⟨_, hagain, rfl, rfl, rfl, rfl⟩

/-- A 16-bit CMYK image with alpha, for a saver of eight bits: its RGB comes with a 16-bit label
first, and with another one then. -/
theorem convertSaveable_twice_relabelled :
    let image : Image Empty :=
      { header :=
          { width := 2, height := 3, bands := 5, format := .ushort, interpretation := .cmyk }
        source := .direct { origin := 0 } fun _ _ => .ok [] }
    let saver := Codec.webp.saverDescriptor .file
    ∃ out again, convertSaveable image saver.saveable saver.table saver.codings [] Colour.basic
        = .ok out ∧ out.header.interpretation = .rgb16 ∧
      convertSaveable out saver.saveable saver.table saver.codings [] Colour.basic = .ok again ∧
      again.header.bands = out.header.bands ∧ again.source = out.source := by
  intro image saver
  have hlabel : (convertSaveable image saver.saveable saver.table saver.codings [] Colour.basic).map
      (fun out => out.header.interpretation) = .ok .rgb16 := by decide
  obtain ⟨out, hok, hlabel⟩ := map_eq_ok.1 hlabel
  obtain ⟨again, hagain, hbands, -, -, hsource⟩ := convertSaveable_twice .webp .file image []
    (by decide) rfl out hok
  exact ⟨out, again, hok, hlabel, hagain, hbands, hsource⟩

end Normalize

end Raster
