/-
# The bands that a saver gets

A saver says which colour models it writes, and whether it writes alpha behind them. So it
advertises some band counts (`Saveable.bandCounts`), and fitting is to bring an image to one of
them.

| an image | leaves step `colour` | and ends with |
| --- | --- | --- |
| of one band or two, for a saver of grey | as it is | one band, or two with alpha |
| of CMYK, for a saver of it | as it is | four bands, or five with alpha |
| any other | in the first model of the saver | its colour bands, one more with alpha |

The bands behind the colour are dropped in two steps that ask differently. Alpha is looked
for in the space that bands and format suggest, and the limit is set by the interpretation
that the image declares. Between the two a pair of bands is kept that is declared to be no
grey: it counts as no alpha and has no limit. This is the one way past what a saver
advertises (`bands_convertSaveable_iff`).
-/
import Raster.Proofs.Normalize.Shape

namespace Raster

namespace Saveable

/-- The numbers of colour bands of the models that a saver takes. -/
def colourCounts (s : Saveable) : List UInt32 :=
  (if s.mono then [1] else []) ++ (if s.rgb then [3] else []) ++ if s.cmyk then [4] else []

/-- The numbers of bands that a saver advertises. -/
def bandCounts (s : Saveable) : List UInt32 :=
  s.colourCounts ++ if s.alpha then s.colourCounts.map (· + 1) else []

/-- A number of colour bands is advertised, and one more with alpha. -/
theorem mem_bandCounts {s : Saveable} {n k : UInt32} (hcolour : k ∈ s.colourCounts)
    (hn : n = k ∨ s.alpha = true ∧ n = k + 1) : n ∈ s.bandCounts := by
  rcases hn with rfl | ⟨halpha, rfl⟩
  · exact List.mem_append_left _ hcolour
  · rw [bandCounts, if_pos halpha]
    exact List.mem_append_right _ (List.mem_map_of_mem hcolour)

/-- A saver of grey takes one band. -/
theorem one_mem_colourCounts {s : Saveable} (hmono : s.mono = true) : 1 ∈ s.colourCounts := by
  simp [colourCounts, hmono]

/-- The spaces of the models that a saver takes. -/
def Offers (s : Saveable) : Interpretation → Prop
  | .bw | .grey16 => s.mono = true
  | .srgb | .rgb16 => s.rgb = true
  | .cmyk => s.cmyk = true
  | _ => False

/-- A space that a saver takes has one of its numbers of bands. -/
theorem mem_colourCounts {s : Saveable} {target : Interpretation} (hoffers : s.Offers target) :
    target.colourBands.getD 1 ∈ s.colourCounts := by
  cases target with
  | bw | grey16 => exact one_mem_colourCounts hoffers
  | srgb | rgb16 =>
    have hrgb : s.rgb = true := hoffers
    simp [colourCounts, hrgb, Interpretation.colourBands]
  | cmyk =>
    have hcmyk : s.cmyk = true := hoffers
    simp [colourCounts, hcmyk, Interpretation.colourBands]
  | _ => exact hoffers.elim

end Saveable

namespace Normalize

variable {ι : Type} {image out : Image ι} {saveable : Saveable} {codings : CodingSet}
  {table : FormatTable} {background : List Double} {sixteen : Bool} {h : Header}
  {target : Interpretation}

/-- The model that is chosen is one that the saver takes. -/
theorem offers_model (hmodel : model saveable sixteen = some target) : saveable.Offers target := by
  unfold model at hmodel
  split_ifs at hmodel <;> obtain rfl := Option.some.inj hmodel <;> assumption

/-! ### A shape in one of the saver's models -/

/-- A shape in a space that a saver takes. -/
structure Modelled (saveable : Saveable) (target : Interpretation) (h : Header) : Prop where
  plain : h.coding = .none
  offered : saveable.Offers target
  label : h.interpretation = target
  enough : target.colourBands.getD 1 ≤ h.bands

/-- A conversion to a space that the saver takes, where its bands are few enough for a word. -/
theorem modelled_converted (sixteen : Bool) (hoffered : saveable.Offers target)
    (hplain : h.coding = .none) (hbands : 0 < h.bands)
    (hsum : Colour.bandSum h target < UInt32.size) :
    Modelled saveable target (Colour.converted h target sixteen) := by
  refine ⟨rfl, hoffered, rfl, ?_⟩
  rw [UInt32.le_iff_toNat_le, Colour.toNat_bands_converted hplain hbands hsum]
  exact Nat.le_add_right _ _

/-- A shape was brought to the saver's first model, where its bands are few enough for a word. -/
theorem brought_eq_ok {fit : Header} : brought sixteen saveable h = .ok fit ↔
    ∃ target, model saveable sixteen = some target ∧ Colour.bandSum h target < UInt32.size ∧
      fit = Colour.converted h target sixteen := by
  unfold brought
  cases model saveable sixteen with
  | none => exact ⟨nofun, fun ⟨_, hmodel, _⟩ => nomatch hmodel⟩
  | some target =>
    dsimp only
    split
    · rename_i hsum
      constructor
      · exact fun hfit => ⟨target, rfl, hsum, (Except.ok.inj hfit).symm⟩
      · rintro ⟨_, hmodel, -, rfl⟩
        obtain rfl := Option.some.inj hmodel
        rfl
    · rename_i hsum
      refine ⟨nofun, ?_⟩
      rintro ⟨_, hmodel, hsmall, -⟩
      obtain rfl := Option.some.inj hmodel
      exact absurd hsmall hsum

/-- **What leaves step `colour`.** -/
theorem fitted_cases {fit : Header} (hplain : h.coding = .none) (hbands : 0 < h.bands)
    (hfit : fitted sixteen saveable h = .ok fit) :
    (saveable.mono = true ∧ h.bands < 3 ∧ fit = h) ∨
      ¬(saveable.mono = true ∧ h.bands < 3) ∧ ∃ target, Modelled saveable target fit := by
  unfold fitted at hfit
  split_ifs at hfit with hgrey hinked
  · exact .inl ⟨hgrey.1, hgrey.2, (Except.ok.inj hfit).symm⟩
  · obtain rfl := Except.ok.inj hfit
    exact .inr ⟨hgrey, .cmyk, hplain, hinked.1, hinked.2.1, hinked.2.2⟩
  · obtain ⟨target, hmodel, hsum, rfl⟩ := brought_eq_ok.1 hfit
    exact .inr ⟨hgrey, target,
      modelled_converted sixteen (offers_model hmodel) hplain hbands hsum⟩

/-- The limit that a saver sets for a space it takes. -/
theorem limit_of_offers (hoffered : saveable.Offers target) (hlabel : h.interpretation = target) :
    limit saveable h =
      if saveable.alpha then target.colourBands.getD 1 + 1 else target.colourBands.getD 1 := by
  rw [limit, hlabel]
  cases target with
  | bw | grey16 | srgb | rgb16 | cmyk => rfl
  | _ => exact hoffered.elim

/-- Nothing but the colour bands of such a space is no alpha, in whatever format. -/
theorem hasAlpha_of_offers (hoffered : saveable.Offers target) (hplain : h.coding = .none)
    (hlabel : h.interpretation = target) (hbands : h.bands = target.colourBands.getD 1) :
    h.hasAlpha = false ∧ h.bands ≠ 2 := by
  cases target with
  | bw | grey16 => exact ⟨Header.hasAlpha_of_odd (.inr (.inl hbands)), by rw [hbands]; decide⟩
  | srgb | rgb16 => exact ⟨Header.hasAlpha_of_odd (.inr (.inr hbands)), by rw [hbands]; decide⟩
  | cmyk =>
    have hguess := (Header.guessInterpretation_eq_cmyk hplain).2
      ⟨hlabel, UInt32.le_of_eq hbands.symm⟩
    refine ⟨?_, by rw [hbands]; decide⟩
    simp [Header.hasAlpha, hguess, hbands, Interpretation.colourBands]
  | _ => exact hoffered.elim

/-- A saver of alpha keeps it. -/
theorem withoutAlpha_of_alpha (halpha : saveable.alpha = true) : withoutAlpha saveable h = h :=
  if_neg fun hdrop => Bool.false_ne_true (hdrop.2.symm.trans halpha)

/-- Alpha goes first, then what is above the limit. -/
theorem Modelled.bands_trimmed (hmodelled : Modelled saveable target h)
    (halpha : saveable.alpha = false) :
    (trimmed saveable (withoutAlpha saveable h)).bands = target.colourBands.getD 1 := by
  have hpos : 0 < target.colourBands.getD 1 := UInt32.lt_iff_toNat_lt.2
    (Colour.bandsOf_bounds target).1
  have henough : target.colourBands.getD 1 ≤ (withoutAlpha saveable h).bands := by
    unfold withoutAlpha
    split
    · rename_i hdrop
      have hne : target.colourBands.getD 1 ≠ h.bands := by
        intro heq
        have hbare := hasAlpha_of_offers hmodelled.offered hmodelled.plain hmodelled.label heq.symm
        exact Bool.false_ne_true (hbare.1.symm.trans hdrop.1)
      have hless := UInt32.lt_iff_toNat_lt.1 (UInt32.lt_of_le_of_ne hmodelled.enough hne)
      have hone : (1 : UInt32) ≤ h.bands := UInt32.le_iff_toNat_le.2 (Nat.one_le_of_lt hless)
      rw [UInt32.le_iff_toNat_le, UInt32.toNat_sub_of_le _ _ hone]
      exact Nat.le_sub_one_of_lt hless
    · exact hmodelled.enough
  have hlabel : (withoutAlpha saveable h).interpretation = target := by
    unfold withoutAlpha
    split
    · exact hmodelled.label
    · exact hmodelled.label
  unfold trimmed
  rw [limit_of_offers hmodelled.offered hlabel, halpha, if_neg Bool.false_ne_true]
  split
  · rfl
  · rename_i hmost
    have hno : ¬target.colourBands.getD 1 < (withoutAlpha saveable h).bands :=
      fun hless => hmost ⟨hpos, hless⟩
    exact UInt32.le_antisymm (UInt32.not_lt.1 hno) henough

/-- **The colour bands are left, and one more where the saver writes alpha.** -/
theorem Modelled.bands_finished (table : FormatTable) (hmodelled : Modelled saveable target h) :
    (finished saveable table h).bands = target.colourBands.getD 1 ∨
      saveable.alpha = true ∧
        (finished saveable table h).bands = target.colourBands.getD 1 + 1 := by
  cases halpha : saveable.alpha with
  | false => exact .inl (hmodelled.bands_trimmed halpha)
  | true =>
    rw [finished, withoutAlpha_of_alpha halpha]
    show (trimmed saveable h).bands = _ ∨ true = true ∧ (trimmed saveable h).bands = _
    unfold trimmed
    rw [limit_of_offers hmodelled.offered hmodelled.label, halpha, if_pos rfl]
    split
    · exact .inr ⟨rfl, rfl⟩
    · rename_i hmost
      have hbounds := Colour.bandsOf_bounds target
      have hnext : (target.colourBands.getD 1 + 1).toNat = Colour.bandsOf target + 1 :=
        (UInt32.toNat_add _ _).trans
          (Nat.mod_eq_of_lt (show Colour.bandsOf target + 1 < 2 ^ 32 by omega))
      have henough : Colour.bandsOf target ≤ h.bands.toNat :=
        UInt32.le_iff_toNat_le.1 hmodelled.enough
      have hatMost : h.bands.toNat ≤ Colour.bandsOf target + 1 := by
        rw [UInt32.lt_iff_toNat_lt, UInt32.lt_iff_toNat_lt, hnext] at hmost
        exact Nat.not_lt.1 fun hmore => hmost ⟨Nat.succ_pos _, hmore⟩
      rcases Nat.eq_or_lt_of_le henough with heq | hless
      · exact .inl (UInt32.toNat_inj.1 heq.symm)
      · exact .inr ⟨rfl, UInt32.toNat_inj.1 (hnext ▸ Nat.le_antisymm hatMost hless)⟩

/-- No step behind the colours packs anything. -/
theorem coding_finished (saveable : Saveable) (table : FormatTable) (hplain : h.coding = .none) :
    (finished saveable table h).coding = .none := by
  unfold finished promoted trimmed withoutAlpha
  split_ifs <;> exact hplain

/-- Or relabels it. -/
theorem interpretation_finished :
    (finished saveable table h).interpretation = h.interpretation := by
  unfold finished promoted trimmed withoutAlpha
  split_ifs <;> rfl

/-- What a saver without alpha gets of its models is colour alone. -/
theorem Modelled.hasAlpha_finished (hmodelled : Modelled saveable target h)
    (halpha : saveable.alpha = false) :
    (finished saveable table h).hasAlpha = false ∧ (finished saveable table h).bands ≠ 2 :=
  hasAlpha_of_offers hmodelled.offered (coding_finished saveable table hmodelled.plain)
    (interpretation_finished.trans hmodelled.label) (hmodelled.bands_trimmed halpha)

/-! ### Grey -/

/-- A single band is never too much. -/
theorem trimmed_of_le_one (hbands : h.bands ≤ 1) : trimmed saveable h = h := by
  refine if_neg fun hmost => ?_
  have hpos := UInt32.lt_iff_toNat_lt.1 hmost.1
  have hless := UInt32.lt_iff_toNat_lt.1 (UInt32.lt_of_lt_of_le hmost.2 hbands)
  exact Nat.not_lt.2 hpos hless

/-- A single band is neither alpha nor too much. -/
theorem finished_of_le_one (hbands : h.bands ≤ 1) :
    finished saveable table h = promoted table h := by
  have hsame : withoutAlpha saveable h = h := if_neg fun hdrop =>
    Nat.not_lt.2 (UInt32.le_iff_toNat_le.1 hbands) (Header.two_le_of_hasAlpha hdrop.1)
  rw [finished, hsame, trimmed_of_le_one hbands]

/-- A second band is kept where the saver writes alpha. -/
theorem bands_finished_two (table : FormatTable) (hbands : h.bands = 2)
    (halpha : saveable.alpha = true) : (finished saveable table h).bands = 2 := by
  have hmost : ¬(0 < limit saveable h ∧ limit saveable h < h.bands) := by
    rw [limit, halpha, hbands]
    cases h.interpretation <;> decide
  rw [finished, withoutAlpha_of_alpha halpha, trimmed, if_neg hmost]
  exact hbands

/-- Where it does not, that band goes if one of the two steps takes it for alpha. -/
theorem bands_finished_dropped (table : FormatTable) (hbands : h.bands = 2)
    (halpha : saveable.alpha = false) (hlast : h.hasAlpha = true ∨ h.interpretation = .grey16) :
    (finished saveable table h).bands = 1 := by
  by_cases hguessed : h.hasAlpha = true
  · have hdropped : (withoutAlpha saveable h).bands = 1 := by
      rw [withoutAlpha, if_pos ⟨hguessed, halpha⟩]
      exact hbands ▸ rfl
    rw [finished, trimmed_of_le_one (UInt32.le_of_eq hdropped)]
    exact hdropped
  · have hsame : withoutAlpha saveable h = h := if_neg fun hdrop => hguessed hdrop.1
    have hmost : limit saveable h = 1 := by
      rw [limit, halpha, hlast.resolve_left hguessed]
      rfl
    rw [finished, hsame, trimmed, hmost, hbands]
    rfl

/-- Where neither does, nothing but the format changes. -/
theorem finished_bare_pair (table : FormatTable) (hplain : h.coding = .none) (hbands : h.bands = 2)
    (halpha : saveable.alpha = false) (hbare : h.hasAlpha = false)
    (hgrey : h.interpretation ≠ .grey16) : finished saveable table h = promoted table h := by
  -- declared as `bw` it would have been taken for alpha
  have hbw : h.interpretation ≠ .bw := by
    intro hlabel
    have hfits : h.interpretationFits = true := by rw [Header.interpretationFits, hplain, hlabel]
    have hguess := (Header.guessInterpretation_of_fits hfits).trans hlabel
    have hlast := Header.hasAlpha_iff.2 (.inl ⟨hbands, .inl hguess⟩)
    exact Bool.false_ne_true (hbare.symm.trans hlast)
  have hmost : ¬(0 < limit saveable h ∧ limit saveable h < h.bands) := by
    rw [limit, halpha, hbands]
    cases hlabel : h.interpretation with
    | bw => exact absurd hlabel hbw
    | grey16 => exact absurd hlabel hgrey
    | _ => decide
  have hsame : withoutAlpha saveable h = h := if_neg fun hdrop =>
    Bool.false_ne_true (hbare.symm.trans hdrop.1)
  rw [finished, hsame, trimmed, if_neg hmost]

/-- Less than three bands are one or two. -/
theorem one_or_two (hbands : 0 < h.bands) (hless : h.bands < 3) : h.bands = 1 ∨ h.bands = 2 := by
  have hpos : 0 < h.bands.toNat := UInt32.lt_iff_toNat_lt.1 hbands
  have hthree : h.bands.toNat < 3 := UInt32.lt_iff_toNat_lt.1 hless
  rcases (show h.bands.toNat = 1 ∨ h.bands.toNat = 2 by omega) with hone | htwo
  · exact .inl (UInt32.toNat_inj.1 hone)
  · exact .inr (UInt32.toNat_inj.1 htwo)

/-- One band or two end as a saver of grey advertises, or as a pair. -/
theorem grey_finished_iff (hplain : h.coding = .none) (hbands : 0 < h.bands) (hless : h.bands < 3)
    (hmono : saveable.mono = true) :
    ((finished saveable table h).bands ∈ saveable.bandCounts ∧
        (saveable.alpha = false → (finished saveable table h).hasAlpha = false ∧
          (finished saveable table h).bands ≠ 2)) ↔
      ¬(saveable.alpha = false ∧ h.bands = 2 ∧ h.hasAlpha = false ∧
        h.interpretation ≠ .grey16) := by
  have hgrey := Saveable.one_mem_colourCounts hmono
  have hsingle : (finished saveable table h).bands = 1 →
      (finished saveable table h).bands ∈ saveable.bandCounts ∧
        (saveable.alpha = false → (finished saveable table h).hasAlpha = false ∧
          (finished saveable table h).bands ≠ 2) := fun hone =>
    ⟨Saveable.mem_bandCounts hgrey (.inl hone), fun _ =>
      ⟨Header.hasAlpha_of_odd (.inr (.inl hone)), by rw [hone]; decide⟩⟩
  rcases one_or_two hbands hless with hone | htwo
  · have hkept : (finished saveable table h).bands = 1 := by
      rw [finished_of_le_one (UInt32.le_of_eq hone)]
      exact hone
    refine iff_of_true (hsingle hkept) fun hpair => ?_
    rw [hone] at hpair
    exact absurd hpair.2.1 (by decide)
  cases halpha : saveable.alpha with
  | true =>
    have hkept := bands_finished_two table htwo halpha
    exact iff_of_true ⟨Saveable.mem_bandCounts hgrey (.inr ⟨halpha, hkept⟩), nofun⟩
      fun hpair => nomatch hpair.1
  | false =>
    rw [halpha] at hsingle
    -- The second band goes if it counts as alpha, and under `grey16` in any case.
    by_cases hlast : h.hasAlpha = true ∨ h.interpretation = .grey16
    · refine iff_of_true (hsingle (bands_finished_dropped table htwo halpha hlast)) ?_
      rintro ⟨-, -, hnone, hlabel⟩
      exact hlast.elim (fun hsome => Bool.false_ne_true (hnone.symm.trans hsome)) hlabel
    · obtain ⟨hbare, hlabel⟩ := not_or.1 hlast
      have hbare := eq_false_of_ne_true hbare
      have hkept := finished_bare_pair table hplain htwo halpha hbare hlabel
      have hpair : (finished saveable table h).bands = 2 := hkept ▸ htwo
      exact iff_of_false (fun hright => (hright.2 rfl).2 hpair)
        (not_not_intro ⟨rfl, htwo, hbare, hlabel⟩)

/-! ### What a saver gets -/

/-- **A saver gets a number of bands that it advertises, and no alpha where it writes none**, but
for a pair of bands that is not taken for alpha. -/
theorem bands_convertSaveable_iff (image : Image ι) (saveable : Saveable) (table : FormatTable)
    (codings : CodingSet) (background : List Double) (hany : saveable.any = false)
    (hbands : 0 < image.header.bands) (out : Image ι)
    (h : convertSaveable image saveable table codings background Colour.basic = .ok out)
    (hout : out.header.coding = .none) :
    (out.header.bands ∈ saveable.bandCounts ∧
        (saveable.alpha = false → out.header.hasAlpha = false ∧ out.header.bands ≠ 2)) ↔
      ¬(image.header.coding = .none ∧ saveable.mono = true ∧ saveable.alpha = false ∧
        image.header.bands = 2 ∧ image.header.hasAlpha = false ∧
        image.header.interpretation ≠ .grey16) := by
  obtain ⟨fit, hfit, hfinished⟩ := map_eq_ok.1 (header_of_convertSaveable hany hbands hout h)
  rw [← hfinished]
  rcases fitted_cases (coding_unpacked _) (bands_unpacked_pos hbands) hfit with
    ⟨hmono, hless, rfl⟩ | ⟨hgrey, target, hmodelled⟩
  · have hplain := plain_of_few hless
    rw [unpacked_of_plain hplain] at hless ⊢
    refine (grey_finished_iff hplain hbands hless hmono).trans (not_congr ?_)
    exact ⟨fun hpair => ⟨hplain, hmono, hpair⟩, fun hall => hall.2.2⟩
  · have hnone : ¬(image.header.coding = .none ∧ saveable.mono = true ∧ saveable.alpha = false ∧
        image.header.bands = 2 ∧ image.header.hasAlpha = false ∧
        image.header.interpretation ≠ .grey16) := by
      rintro ⟨hplain, hmono, -, hpair, -, -⟩
      rw [unpacked_of_plain hplain, hpair] at hgrey
      exact hgrey ⟨hmono, by decide⟩
    have hcolour := Saveable.mem_colourCounts hmodelled.offered
    exact iff_of_true ⟨Saveable.mem_bandCounts hcolour (hmodelled.bands_finished table),
      fun halpha => hmodelled.hasAlpha_finished halpha⟩ hnone

/-- CMYK with two more bands, for a saver of grey and RGB. -/
theorem bands_convertSaveable_inked :
    let image : Image Empty :=
      { header :=
          { width := 2, height := 3, bands := 6, format := .ushort, interpretation := .cmyk }
        source := .direct { origin := 0 } fun _ _ => .ok [] }
    let saveable : Saveable := { mono := true, rgb := true }
    ∃ out, convertSaveable image saveable .allUchar .plainOnly [] Colour.basic = .ok out ∧
      out.header.coding = .none ∧ out.header.bands ∈ saveable.bandCounts ∧
      out.header.hasAlpha = false ∧ out.header.bands ≠ 2 := by
  intro image saveable
  have hcoding : (convertSaveable image saveable .allUchar .plainOnly [] Colour.basic).map
      (fun out => out.header.coding) = .ok .none := by decide
  obtain ⟨out, hok, hplain⟩ := map_eq_ok.1 hcoding
  have hiff := bands_convertSaveable_iff image saveable .allUchar .plainOnly [] rfl (by decide) out
    hok hplain
  obtain ⟨hwrites, hbare⟩ := hiff.2 fun hpair => absurd hpair.2.2.2.1 (by decide)
  exact ⟨out, hok, hplain, hwrites, hbare rfl⟩

/-- **What a saver without alpha gets besides:** two bands of no declared meaning come to a saver of
grey and RGB as they are. -/
theorem convertSaveable_unadvertised :
    let pair : Image Empty :=
      { header :=
          { width := 1, height := 1, bands := 2, format := .uchar, interpretation := .multiband }
        source := .direct { origin := 0 } fun _ _ => .ok [1, 2] }
    convertSaveable pair { mono := true, rgb := true } .allUchar .plainOnly [] Colour.basic
        = .ok pair ∧ pair.header.bands ∉ Saveable.bandCounts { mono := true, rgb := true } := by
  intro pair
  exact ⟨rfl, by decide⟩

end Normalize

end Raster
