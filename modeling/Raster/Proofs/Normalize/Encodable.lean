/-
# What an encoder is given

A codec's descriptor says which colour models and formats an image is brought to, and its
encoder has a table of its own of band numbers and formats. Both are joined by the shape of
a result:

| bands of the image | bands of the result |
| --- | --- |
| 1 or 2, for a saver of grey | 1 or 2 |
| others | 3 or 4 |

So no encoder refuses what its descriptor asked for (`accept_ready`).
-/
import Raster.Proofs.Normalize.Settled
import Raster.Save.Basic

namespace Raster

/-- In both integer formats pictures have one to four bands. -/
theorem ColourType.isSome_of? {bands : UInt32} {format : BandFormat}
    (hformat : format = .uchar ∨ format = .ushort) :
    (of? bands format).isSome = true ↔ 0 < bands ∧ bands ≤ 4 := by
  rw [UInt32.lt_iff_toNat_lt, UInt32.le_iff_toNat_le]
  show _ ↔ 0 < bands.toNat ∧ bands.toNat ≤ 4
  unfold of?
  generalize bands.toNat = n
  match n with
  | 0 | 1 | 2 | 3 | 4 => rcases hformat with rfl | rfl <;> decide
  | n + 5 =>
    have hmany : ¬(0 < n + 5 ∧ n + 5 ≤ 4) := fun h => Nat.not_le.2 (Nat.le_add_left 5 n) h.2
    rcases hformat with rfl | rfl <;> exact ⟨(nomatch ·), fun h => absurd h hmany⟩

/-- An encoder refuses no other samples. -/
theorem Codec.exists_accept {job : SaveJob}
    (hwritable : (ColourType.of? job.header.bands job.header.format).isSome = true) :
    ∃ colour, accept job = .ok colour := by
  obtain ⟨colour, hcolour⟩ := Option.isSome_iff_exists.1 hwritable
  exact ⟨colour, by rw [accept, hcolour]⟩

/-- A codec asks for one of these formats. -/
theorem Codec.table_integer (codec : Codec) (f : BandFormat) :
    codec.table f = .uchar ∨ codec.table f = .ushort := by
  cases codec with
  | png | tiff => cases f <;> decide
  | jpeg | webp => exact .inl rfl

namespace Normalize

variable {ι : Type} {image out : Image ι} {saveable : Saveable} {table : FormatTable}
  {background : List Double} {h : Header}

/-! ### Bands -/

/-- The steps behind the colours take bands, but not the last one. -/
theorem bands_finished_le (saveable : Saveable) (table : FormatTable) (hbands : 0 < h.bands) :
    0 < (finished saveable table h).bands ∧ (finished saveable table h).bands ≤ h.bands := by
  have hopaque : 0 < (withoutAlpha saveable h).bands ∧
      (withoutAlpha saveable h).bands ≤ h.bands := by
    unfold withoutAlpha
    split
    · rename_i hdrop
      have htwo := Header.two_le_of_hasAlpha hdrop.1
      have hrest : (h.bands - 1).toNat = h.bands.toNat - 1 :=
        UInt32.toNat_sub_of_le _ _ (UInt32.le_iff_toNat_le.2 (Nat.le_of_succ_le htwo))
      refine ⟨UInt32.lt_iff_toNat_lt.2 ?_, UInt32.le_iff_toNat_le.2 ?_⟩
      · exact hrest ▸ Nat.sub_pos_of_lt htwo
      · exact hrest ▸ Nat.sub_le _ _
    · exact ⟨hbands, UInt32.le_refl _⟩
  show 0 < (trimmed saveable (withoutAlpha saveable h)).bands ∧
    (trimmed saveable (withoutAlpha saveable h)).bands ≤ h.bands
  unfold trimmed
  split
  · rename_i hmost
    exact ⟨hmost.1, UInt32.le_trans (UInt32.le_of_lt hmost.2) hopaque.2⟩
  · exact hopaque

/-- **A saver of RGB gets one to four bands.** -/
theorem bands_of_shape {out : Header} (hregular : Regular saveable table) (hbands : 0 < h.bands)
    (hout : shape saveable table h = .ok out) : 0 < out.bands ∧ out.bands ≤ 4 := by
  obtain ⟨fit, hfit, rfl⟩ := map_eq_ok.1 hout
  rcases hregular.fitted_cases hfit with ⟨-, hless, rfl⟩ | ⟨hsum, rfl⟩
  · have hplain := plain_of_few hless
    rw [unpacked_of_plain hplain] at hless ⊢
    obtain ⟨hpos, hle⟩ := bands_finished_le saveable table hbands
    exact ⟨hpos, UInt32.le_trans hle
      (UInt32.le_trans (UInt32.le_of_lt hless) (by decide))⟩
  · have hrgb := isRgb_finished hregular (coding_unpacked h) (bands_unpacked_pos hbands) hsum
    rcases hrgb.bands with hthree | ⟨-, hfour⟩
    · rw [hthree]
      decide
    · rw [hfour]
      decide

/-- A saver that accepts no coding gets none. -/
theorem plain_of_plainOnly {coding : Coding}
    (haccepts : CodingSet.plainOnly.accepts coding = true) :
    coding = .none := by
  cases coding with
  | none => rfl
  | labq | rad => cases haccepts

/-- **An encoder can write the samples that it is given.** -/
theorem writable_convertSaveable (codec : Codec) (io : IoKind) (hbands : 0 < image.header.bands)
    (h : convertSaveable image (codec.saverDescriptor io).saveable (codec.saverDescriptor io).table
      (codec.saverDescriptor io).codings background Colour.basic = .ok out) :
    (ColourType.of? out.header.bands out.header.format).isSome = true := by
  have hregular := regular_codec codec
  have hconforms := conforms_of_convertSaveable Colour.keeps_basic hregular.any ⟨.none, rfl⟩ h
  have hplain := plain_of_plainOnly hconforms.accepted
  have hformat : out.header.format = .uchar ∨ out.header.format = .ushort := by
    obtain ⟨f, hf⟩ := hconforms.promoted hplain
    rw [hf]
    exact codec.table_integer f
  exact (ColourType.isSome_of? hformat).2
    (bands_of_shape hregular hbands (header_of_convertSaveable hregular.any hbands hplain h))

end Normalize

namespace Save

variable {ι : Type} {image out : Image ι}

/-- A profile is metadata. -/
theorem header_embedProfile {files : Files} {profile : Option String}
    (h : embedProfile files profile image = .ok out) : out.header = image.header := by
  cases profile with
  | none =>
    obtain rfl := Except.ok.inj h
    rfl
  | some path =>
    rw [embedProfile] at h
    split at h
    · obtain rfl := Except.ok.inj h
      rfl
    · cases h

/-- So is the height of a page. -/
theorem header_setPageHeight (name : String) (pageHeight : Option UInt32) (image : Image ι) :
    (setPageHeight name pageHeight image).1.header = image.header := by
  cases pageHeight <;> rfl

/-- A ready image has the shape that it was converted to. -/
theorem exists_of_ready {descriptor : Descriptor} {settings : SaveSettings}
    {colour : ColourEngine ι} {files : Files} {warnings : List String}
    (h : ready descriptor settings colour files image = .ok (out, warnings)) :
    ∃ converted, Normalize.convertSaveable image descriptor.saveable descriptor.table
        descriptor.codings settings.background colour = .ok converted ∧
      out.header = converted.header := by
  obtain ⟨converted, hconverted, h⟩ := bind_eq_ok.1 h
  obtain ⟨embedded, hembedded, h⟩ := bind_eq_ok.1 h
  have hout : (setPageHeight descriptor.name settings.pageHeight
      (embedded.retain settings.keep).1).1 = out := congrArg Prod.fst (Except.ok.inj h)
  refine ⟨converted, hconverted, ?_⟩
  rw [← header_embedProfile hembedded, ← hout]
  exact header_setPageHeight _ _ _

/-- **No save fails because a codec's saver cannot write the samples** that the codec's descriptor
asked for, whatever the background, the profile and the metadata to keep. -/
theorem accept_ready (codec : Codec) (io : IoKind) (image : Image LoadId)
    (hbands : 0 < image.header.bands) :
    (∀ (background : List Double) (out : Image LoadId),
      Normalize.convertSaveable image (codec.saverDescriptor io).saveable
          (codec.saverDescriptor io).table (codec.saverDescriptor io).codings background
          Colour.basic = .ok out →
        (ColourType.of? out.header.bands out.header.format).isSome = true) ∧
      ∀ (settings : SaveSettings) (files : Files) (out : Image LoadId) (warnings : List String)
        (name : String) (options : Options),
        ready (codec.saverDescriptor io) settings Colour.basic files image = .ok (out, warnings) →
          ∃ colour, Codec.accept (job name out options) = .ok colour := by
  refine ⟨fun background out h => Normalize.writable_convertSaveable codec io hbands h, ?_⟩
  intro settings files out warnings name options h
  obtain ⟨converted, hconverted, hheader⟩ := exists_of_ready h
  have hsome := Normalize.writable_convertSaveable codec io hbands hconverted
  rw [← hheader] at hsome
  exact Codec.exists_accept hsome

/-- Five 16-bit bands of CMYK for JPEG, over two pages with a colour of their own behind them. -/
theorem accept_ready_inked :
    let image : Image LoadId :=
      { header :=
          { width := 2, height := 4, bands := 5, format := .ushort, interpretation := .cmyk }
        source := .direct { origin := 0 } fun _ _ => .ok [] }
    let settings : SaveSettings := { background := [.one], pageHeight := some 2 }
    ∃ out warnings colour, ready (Codec.jpeg.saverDescriptor .file) settings Colour.basic {} image =
        .ok (out, warnings) ∧ out.header.bands = 3 ∧
      Codec.accept (job "jpegsave" out {}) = .ok colour := by
  intro image settings
  have hrun : (ready (Codec.jpeg.saverDescriptor .file) settings Colour.basic {} image).map
      (fun saved => saved.1.header.bands) = .ok 3 := by decide +kernel
  obtain ⟨⟨out, warnings⟩, hready, hthree⟩ := map_eq_ok.1 hrun
  obtain ⟨colour, haccept⟩ := (accept_ready .jpeg .file image (by decide)).2 settings {} out warnings
    "jpegsave" {} hready
  exact ⟨out, warnings, colour, hready, hthree, haccept⟩

end Save

end Raster
