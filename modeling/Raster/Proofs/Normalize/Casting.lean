/-
# Nothing but a cast

A saver that takes anything is to get every band as it is, with samples in a format of its
table. What that means for pixels is said of any rectangle that anybody fetches: the bytes
of the original, each sample read and written again (`CastThrough`).

| cut | pieces | joined again |
| --- | --- | --- |
| into pixels | `pixelSize` bytes | the samples, pixel by pixel (`mapPixels_recast`) |
| into samples | bytes of the format | the same, for pixels are whole samples (`flatMap_chunks`) |

An image that needs no cast passes before anything is looked at. One that needs a cast
still loses its alpha to a saver that does not write alpha, although the saver takes
anything (`convertSaveable_any_cast_iff`).
-/
import Raster.Proofs.Image.Pointwise
import Raster.Proofs.Normalize.Shape

namespace Raster

/-! ### Samples of pixels -/

namespace Bytes

variable {n m : Nat}

/-- A string of whole pieces is empty, or one piece and whole pieces behind it. -/
theorem whole_induction {P : Bytes → Prop} (nil : P [])
    (piece : ∀ a b : Bytes, a.length = n → P b → P (a ++ b)) (bytes : Bytes)
    (hwhole : n ∣ bytes.length) : P bytes := by
  obtain ⟨k, hk⟩ := hwhole
  induction k generalizing bytes with
  | zero =>
    obtain rfl := List.eq_nil_of_length_eq_zero hk
    exact nil
  | succ k ih =>
    have hfront : (bytes.take n).length = n := by
      rw [List.length_take, hk, Nat.mul_succ]
      omega
    have hback : (bytes.drop n).length = n * k := by
      rw [List.length_drop, hk, Nat.mul_succ]
      omega
    rw [← List.take_append_drop n bytes]
    exact piece _ _ hfront (ih _ hback)

/-- Nothing has no pieces. -/
theorem chunks_nil (n : Nat) : chunks n [] = [] := by simp [chunks_eq]

/-- Bytes that are whole pieces are cut on their own. -/
theorem chunks_append_of_dvd (hn : 0 < n) {a : Bytes} (ha : n ∣ a.length) (b : Bytes) :
    (a ++ b).chunks n = a.chunks n ++ b.chunks n := by
  refine whole_induction (P := fun a => (a ++ b).chunks n = a.chunks n ++ b.chunks n) ?_
    (fun front back hfront ih => ?_) a ha
  · rw [chunks_nil]
    rfl
  · rw [List.append_assoc, chunks_append hn hfront, chunks_append hn hfront, ih, List.cons_append]

/-- Pieces cut into whole smaller ones are the whole cut into these. -/
theorem flatMap_chunks (hn : 0 < n) (hm : 0 < m) (hdvd : n ∣ m) {bytes : Bytes}
    (hwhole : m ∣ bytes.length) : (bytes.chunks m).flatMap (chunks n) = bytes.chunks n := by
  refine whole_induction (P := fun bytes => (bytes.chunks m).flatMap (chunks n) = bytes.chunks n) ?_
    (fun front back hfront ih => ?_) bytes hwhole
  · rw [chunks_nil, chunks_nil]
    rfl
  · have hpieces : n ∣ front.length := hfront ▸ hdvd
    rw [chunks_append hm hfront, List.flatMap_cons, ih, chunks_append_of_dvd hn hpieces]

end Bytes

/-- **Pixels cast one by one are their samples cast one by one.** -/
theorem Source.mapPixels_recast {h : Header} {bytes : Bytes} (target : BandFormat) (shift : Nat)
    (hbands : 0 < h.bands) (hwhole : h.pixelBytes ∣ bytes.length) :
    mapPixels h (fun pixel => some (Image.recast h.format target shift pixel)) bytes =
      .ok (Image.recast h.format target shift bytes) := by
  have hpositive : 0 < h.pixelBytes := Header.pixelBytes_pos (UInt32.lt_iff_toNat_lt.1 hbands)
  have hsize : h.pixelSize ≠ 0 := by
    intro hzero
    rw [← Header.toNat_pixelSize, hzero] at hpositive
    exact Nat.lt_irrefl 0 hpositive
  have hsamples : (bytes.chunks h.pixelBytes).flatMap h.format.readAll =
      h.format.readAll bytes := by
    rw [BandFormat.readAll, ← Bytes.flatMap_chunks h.format.size_pos hpositive
      (Nat.dvd_mul_left _ _) hwhole, List.map_flatMap]
    rfl
  have hall : (bytes.chunks h.pixelBytes).mapM
      (fun pixel => some (Image.recast h.format target shift pixel)) =
      some ((bytes.chunks h.pixelBytes).map (Image.recast h.format target shift)) :=
    mapM_eq_some fun _ _ => rfl
  rw [mapPixels, if_neg hsize, Header.toNat_pixelSize, hall]
  refine congrArg Except.ok ?_
  rw [← List.flatMap_def, Image.recast, ← hsamples, List.flatMap_assoc]
  rfl

namespace Normalize

variable {ι : Type} {image out : Image ι} {saveable : Saveable} {codings : CodingSet}
  {table : FormatTable} {background : List Double} {colour : ColourEngine ι}

/-- Packed samples in the format that a table wants.  In it already they stay; else each one is read
and written again, of a wider integer the high bits where the format has eight. -/
def tabulate (table : FormatTable) (f : BandFormat) (bytes : Bytes) : Bytes :=
  if f = table f then bytes
  else
    Image.recast f (table f) (Image.castShift f (table f) (!f.is8Bit && (table f).is8Bit)) bytes

/-- The same image with its samples in the format that a table wants. -/
structure CastThrough (table : FormatTable) (image out : Image ι) : Prop where
  header : out.header = { image.header with format := table image.header.format }
  metadata : out.metadata = image.metadata
  samples : 0 < image.header.bands → ∀ {σ : Type} (files : σ → Files)
    (answer : ι → Rect → σ → Except Error Bytes × σ) (r : Rect) (s s' : σ) (bytes : Bytes),
    image.fetch files answer r s = (.ok bytes, s') → image.header.pixelBytes ∣ bytes.length →
      out.fetch files answer r s = (.ok (tabulate table image.header.format bytes), s')
  errors : ∀ {σ : Type} (files : σ → Files) (answer : ι → Rect → σ → Except Error Bytes × σ)
    (r : Rect) (s s' : σ) (e : Error), image.fetch files answer r s = (.error e, s') →
      out.fetch files answer r s = (.error e, s')

/-- An image in the format of the table needs no cast. -/
theorem castThrough_self (hformat : table image.header.format = image.header.format) :
    CastThrough table image image where
  header := by rw [hformat]
  metadata := rfl
  samples := by
    intro _ _ files answer r s s' bytes hfetch _
    rw [tabulate, if_pos hformat.symm]
    exact hfetch
  errors := by
    intro _ files answer r s s' e hfetch
    exact hfetch

/-- Any other is cast sample by sample. -/
theorem castThrough_promote (hplain : image.header.coding = .none)
    (hformat : table image.header.format ≠ image.header.format) :
    CastThrough table image (promote table image) := by
  have hcast : promote table image = image.map
      { image.header with format := table image.header.format } fun pixel =>
        some (Image.recast image.header.format (table image.header.format)
          (Image.castShift image.header.format (table image.header.format)
            (!image.header.format.is8Bit && (table image.header.format).is8Bit)) pixel) := by
    rw [promote, if_pos hplain]
    exact if_neg (Ne.symm hformat)
  rw [hcast]
  refine ⟨rfl, rfl, ?_, ?_⟩
  · intro hbands _ files answer r s s' bytes hfetch hwhole
    refine (Image.fetch_map files answer image _ _ rfl rfl r s).trans ?_
    rw [hfetch, tabulate, if_neg (Ne.symm hformat)]
    exact Prod.ext (Source.mapPixels_recast _ _ hbands hwhole) rfl
  · intro _ files answer r s s' e hfetch
    refine (Image.fetch_map files answer image _ _ rfl rfl r s).trans ?_
    rw [hfetch]
    rfl

/-- **A saver that takes anything gets all bands in a format of its table**, whatever the background
and the engine that converts colours. It does not where the samples need a cast and the last band is
alpha, which the saver does not write, or the limit for a saver that does is no word. -/
theorem convertSaveable_any_cast_iff (image : Image ι) (saveable : Saveable) (table : FormatTable)
    (codings : CodingSet) (background : List Double) (colour : ColourEngine ι)
    (hany : saveable.any = true) (hplain : image.header.coding = .none)
    (hcodings : codings.plain = true) :
    (∃ out, convertSaveable image saveable table codings background colour = .ok out ∧
        CastThrough table image out) ↔
      ¬(table image.header.format ≠ image.header.format ∧
        (image.header.hasAlpha = true ∧ saveable.alpha = false ∨
          Crowded saveable image.header)) := by
  have hcoded : ¬(image.header.coding ≠ .none ∧ codings.accepts image.header.coding = true) :=
    fun hcoded => hcoded.1 hplain
  by_cases hformat : table image.header.format = image.header.format
  · have hpass : convertSaveable image saveable table codings background colour = .ok image :=
      (if_neg hcoded).trans (if_pos ⟨hplain, hany, hformat⟩)
    exact iff_of_true ⟨image, hpass, castThrough_self hformat⟩ fun hslip => hslip.1 hformat
  by_cases hroom : Crowded saveable image.header
  · have hfull : convertSaveable image saveable table codings background colour =
        .error .overflow :=
      convertSaveable_crowded hany hcoded (fun hpass => hformat hpass.2) hroom
    rw [hfull]
    exact iff_of_false (fun ⟨_, hout, _⟩ => nomatch hout) (not_not_intro ⟨hformat, .inr hroom⟩)
  rw [convertSaveable_eq_any hany hcoded fun hpass => hformat hpass.2]
  by_cases halpha : image.header.hasAlpha = true ∧ saveable.alpha = false
  · refine iff_of_false ?_ (not_not_intro ⟨hformat, .inl halpha⟩)
    rintro ⟨out, hout, hcast⟩
    obtain ⟨flat, hflat, hrest⟩ := bind_eq_ok.1 hout
    obtain ⟨cut, hcut, hrecode⟩ := bind_eq_ok.1 hrest
    obtain rfl := eq_of_dropBands_any hany hcut
    have hflatCoding := (keeps_dropAlpha hflat).coding.trans hplain
    have hpromoted := (keeps_promote table cut).coding.trans hflatCoding
    rw [recode_of_plain hcodings hpromoted] at hrecode
    obtain rfl := Except.ok.inj hrecode
    -- A cast keeps the bands, and the flattened image has one less.
    have hbands : image.header.bands - 1 = image.header.bands := by
      have hheader := congrArg Header.bands hcast.header
      rw [header_promote table hflatCoding, header_dropAlpha hplain hflat, withoutAlpha,
        if_pos halpha] at hheader
      exact hheader
    have htwo := Header.two_le_of_hasAlpha halpha.1
    have hone : (1 : UInt32) ≤ image.header.bands :=
      UInt32.le_iff_toNat_le.2 (Nat.le_trans (by decide) htwo)
    have hless := UInt32.toNat_sub_of_le _ _ hone
    rw [hbands] at hless
    exact absurd hless (Nat.ne_of_gt (Nat.sub_lt (Nat.lt_of_lt_of_le (by decide) htwo) (by decide)))
  · have hflat := dropAlpha_of_bare background halpha
    have hpromoted := (keeps_promote table image).coding.trans hplain
    refine iff_of_true ⟨promote table image, ?_, castThrough_promote hplain hformat⟩
      fun hslip => hslip.2.elim halpha hroom
    exact bind_eq_ok.2 ⟨image, hflat, bind_eq_ok.2
      ⟨image, dropBands_any hany hroom, recode_of_plain hcodings hpromoted⟩⟩

/-- 16-bit RGB with alpha, for a saver of anything with alpha in eight bits. -/
theorem convertSaveable_any_cast_kept :
    let image : Image Empty :=
      { header :=
          { width := 1, height := 1, bands := 4, format := .ushort, interpretation := .rgb16 }
        source := .direct { origin := 0 } fun _ _ => .ok [1, 2, 3, 4, 5, 6, 7, 8] }
    let saveable : Saveable := { any := true, alpha := true }
    ∃ out, convertSaveable image saveable .allUchar .plainOnly [.one, .one] Colour.basic = .ok out ∧
      out.header = { image.header with format := .uchar } := by
  intro image saveable
  obtain ⟨out, hout, hcast⟩ := (convertSaveable_any_cast_iff image saveable .allUchar .plainOnly
    [.one, .one] Colour.basic rfl rfl rfl).2 fun hslip => absurd hslip.2 (by decide)
  exact ⟨out, hout, hcast.header⟩

/-- **What is dropped all the same:** the alpha of such an image, for a saver of anything that does
not write it. -/
theorem convertSaveable_any_flattened :
    let image : Image Empty :=
      { header :=
          { width := 1, height := 1, bands := 4, format := .ushort, interpretation := .rgb16 }
        source := .direct { origin := 0 } fun _ _ => .ok [1, 2, 3, 4, 5, 6, 7, 8] }
    ∃ out, convertSaveable image { any := true } .allUchar .plainOnly [] Colour.basic = .ok out ∧
      out.header.bands = 3 ∧ ¬CastThrough .allUchar image out := by
  intro image
  have hshape : (convertSaveable image { any := true } .allUchar .plainOnly [] Colour.basic).map
      (fun out => out.header.bands) = .ok 3 := by decide
  obtain ⟨out, hout, hthree⟩ := map_eq_ok.1 hshape
  refine ⟨out, hout, hthree, fun hcast => ?_⟩
  have hfour := congrArg Header.bands hcast.header
  rw [hthree] at hfour
  exact absurd hfour (by decide)

end Normalize

end Raster
