/-
# What a save keeps, field by field

Rebuilding the EXIF block, dropping categories and checking the profile act on
one map after the other. Read off the result, each of them decides its own
fields:

| field | survives if |
| --- | --- |
| `exif-data` | EXIF is kept; it is then the rebuilt block |
| `icc-profile-data` | ICC is kept and the profile, if it is one, fits |
| any other | it has no category or one that is kept |

What survives once survives again (`retain_retain`): the fields that the block is
rebuilt from are kept with it, and the rebuilt block does not change any more.
-/
import Raster.Retain
import Raster.Proofs.Exif.Update

namespace Raster

/-! ### Categories -/

/-- Fields of tags are fields of the block. -/
theorem Category.ofField_of_isFieldName {name : String} (h : Exif.isFieldName name = true) :
    ofField name = some exif := by
  have hne : ∀ other, Exif.isFieldName other = false → name ≠ other := by
    rintro other hother rfl
    rw [h] at hother
    cases hother
  rw [ofField, if_neg (hne _ (by decide)), if_neg (hne _ (by decide)), if_neg (hne _ (by decide)),
    if_neg (hne _ (by decide)), if_neg (hne _ (by decide))]
  exact if_pos h

/-- A field survives if every category that it has is kept. -/
theorem Keep.keepsField_iff {keep : Keep} {name : String} :
    keep.keepsField name = true ↔ ∀ c, Category.ofField name = some c → keep.keeps c = true := by
  rw [keepsField]
  cases Category.ofField name with
  | none => exact ⟨fun _ c hc => (nomatch hc), fun _ => rfl⟩
  | some c => exact ⟨fun h c' hc => Option.some.inj hc ▸ h, fun h => h c rfl⟩

/-- Where EXIF is kept, so is all that a block is rebuilt from. -/
theorem Keep.keepsField_of_isSource {keep : Keep} (hkeep : keep.exif = true) {name : String}
    (h : Exif.IsSource name) :
    keep.keepsField name = true ∧ name ≠ Metadata.exif ∧ name ≠ Metadata.icc := by
  rcases h with hname | rfl | rfl
  · refine ⟨keepsField_iff.2 fun c hc => ?_, ?_, ?_⟩
    · rw [Category.ofField_of_isFieldName hname] at hc
      obtain rfl := Option.some.inj hc
      exact hkeep
    · rintro rfl
      exact absurd hname (by decide)
    · rintro rfl
      exact absurd hname (by decide)
  · exact ⟨keepsField_iff.2 fun c hc => absurd hc (by decide +revert), by decide, by decide⟩
  · exact ⟨keepsField_iff.2 fun c hc => absurd hc (by decide +revert), by decide, by decide⟩

namespace Metadata

variable {metadata : Metadata} {header : Header} {keep : Keep}

/-! ### The three steps -/

/-- Rebuilding the block changes no field but the block's. -/
theorem get?_update {name : String} (hname : name ≠ Metadata.exif) :
    (Exif.update metadata header).1.get? name = metadata.get? name := by
  rw [Exif.update]
  split
  · rfl
  · rfl
  · rw [Fields.get?_insert, if_neg hname]

/-- Nor does refreshing it, if it is refreshed at all. -/
theorem get?_refreshExif {name : String} (hname : name ≠ Metadata.exif) :
    (metadata.refreshExif header keep).1.get? name = metadata.get? name := by
  rw [refreshExif]
  split
  · exact get?_update hname
  · rfl

/-- Stripping leaves the fields whose category is kept. -/
theorem get?_strip {name : String} :
    (metadata.strip keep).get? name =
      if keep.keepsField name then metadata.get? name else none := by
  rw [strip, Fields.get?_filter]
  cases metadata.get? name <;> cases keep.keepsField name <;> rfl

/-- Dropping a profile drops no other field. -/
theorem get?_dropUnfitProfile {name : String} (hname : name ≠ Metadata.icc) :
    (metadata.dropUnfitProfile header keep).get? name = metadata.get? name := by
  rw [dropUnfitProfile]
  split
  · split
    · split
      · rfl
      · rw [Fields.get?_erase, if_neg hname]
    · rfl
  · rfl

/-- A value that may stand as the profile of an image: no profile at all, or one that fits. -/
def FitsProfile (header : Header) (value : MetaValue) : Prop :=
  ∀ profile, value = .blob profile → Icc.checkCompatible profile header = .ok ()

/-- A blob is a field that is one. -/
theorem getBlob_eq_some {name : String} {blob : Bytes} :
    metadata.getBlob name = some blob ↔ metadata.get? name = some (.blob blob) := by
  rw [getBlob]
  constructor
  · intro h
    split at h
    · rename_i hfound
      rw [hfound, Option.some.inj h]
    · cases h
  · intro h
    rw [h]

/-- A profile that is left was there and fits. -/
theorem get?_dropUnfitProfile_icc (hkeep : keep.icc = true) {value : MetaValue} :
    (metadata.dropUnfitProfile header keep).get? Metadata.icc = some value ↔
      metadata.get? Metadata.icc = some value ∧ FitsProfile header value := by
  rw [dropUnfitProfile, if_pos hkeep]
  cases hblob : metadata.getBlob Metadata.icc with
  | none =>
    refine ⟨fun hvalue => ⟨hvalue, fun profile heq => ?_⟩, And.left⟩
    rw [getBlob_eq_some.2 (heq ▸ hvalue)] at hblob
    cases hblob
  | some profile =>
    have hprofile := getBlob_eq_some.1 hblob
    cases hcheck : Icc.checkCompatible profile header with
    | ok _ =>
      simp only [hcheck]
      refine ⟨fun hvalue => ⟨hvalue, fun other heq => ?_⟩, And.left⟩
      rw [hvalue, heq] at hprofile
      injection hprofile with hprofile
      injection hprofile with hprofile
      rw [hprofile, hcheck]
    | error e =>
      simp only [hcheck]
      constructor
      · intro hvalue
        rw [Fields.get?_erase, if_pos rfl] at hvalue
        cases hvalue
      · rintro ⟨hvalue, hfits⟩
        rw [hprofile] at hvalue
        have hok := hfits profile (Option.some.inj hvalue).symm
        rw [hcheck] at hok
        cases hok

/-! ### The survivors -/

/-- What is retained comes of three steps, in this order. -/
theorem retain_fst : (metadata.retain header keep).1 =
    ((metadata.refreshExif header keep).1.strip keep).dropUnfitProfile header keep := rfl

/-- All fields but the block and the profile are kept by category alone. -/
theorem get?_retain {name : String} (hexif : name ≠ Metadata.exif) (hicc : name ≠ Metadata.icc) :
    (metadata.retain header keep).1.get? name =
      if keep.keepsField name then metadata.get? name else none := by
  rw [retain_fst, get?_dropUnfitProfile hicc, get?_strip, get?_refreshExif hexif]

/-- A block that is kept is the rebuilt one. -/
theorem get?_retain_exif :
    (metadata.retain header keep).1.get? Metadata.exif =
      if keep.exif then (Exif.update metadata header).1.get? Metadata.exif else none := by
  have hkeeps : keep.keepsField Metadata.exif = keep.exif := rfl
  rw [retain_fst, get?_dropUnfitProfile (by decide), get?_strip, hkeeps, refreshExif]
  cases keep.exif <;> rfl

/-- A profile that is kept is the image's own, and fits. -/
theorem get?_retain_icc {value : MetaValue} :
    (metadata.retain header keep).1.get? Metadata.icc = some value ↔
      keep.icc = true ∧ metadata.get? Metadata.icc = some value ∧ FitsProfile header value := by
  have hkeeps : keep.keepsField Metadata.icc = keep.icc := rfl
  have hstrip : ((metadata.refreshExif header keep).1.strip keep).get? Metadata.icc =
      if keep.icc then metadata.get? Metadata.icc else none := by
    rw [get?_strip, hkeeps, get?_refreshExif (by decide)]
  rw [retain_fst]
  cases hkeep : keep.icc with
  | true =>
    rw [get?_dropUnfitProfile_icc hkeep, hstrip, hkeep, if_pos rfl]
    exact ⟨fun h => ⟨rfl, h⟩, And.right⟩
  | false =>
    rw [dropUnfitProfile, if_neg (by rw [hkeep]; exact Bool.false_ne_true), hstrip, hkeep,
      if_neg Bool.false_ne_true]
    exact ⟨(nomatch ·), fun h => absurd h.1 Bool.false_ne_true⟩

/-- Whatever survives is kept. -/
theorem keepsField_of_get?_retain {name : String} {value : MetaValue}
    (h : (metadata.retain header keep).1.get? name = some value) : keep.keepsField name = true := by
  by_cases hicc : name = Metadata.icc
  · rw [hicc] at h ⊢
    exact (get?_retain_icc.1 h).1
  · rw [retain_fst, get?_dropUnfitProfile hicc, get?_strip] at h
    split at h
    · assumption
    · cases h

/-! ### A second save -/

/-- Where every field is kept, nothing is stripped. -/
theorem strip_eq_self
    (h : ∀ name value, metadata.get? name = some value → keep.keepsField name = true) :
    metadata.strip keep = metadata := by
  refine Fields.ext_get? fun name => ?_
  rw [get?_strip]
  split
  · rfl
  · rename_i hdropped
    cases hvalue : metadata.get? name with
    | none => rfl
    | some value => exact absurd (h name value hvalue) hdropped

/-- A profile that fits is not dropped. -/
theorem dropUnfitProfile_eq_self (h : keep.icc = true → ∀ value,
    metadata.get? Metadata.icc = some value → FitsProfile header value) :
    metadata.dropUnfitProfile header keep = metadata := by
  by_cases hkeep : keep.icc = true
  · refine Fields.ext_get? fun name => ?_
    by_cases hicc : name = Metadata.icc
    · rw [hicc]
      refine Option.ext fun value => (get?_dropUnfitProfile_icc hkeep).trans ?_
      exact ⟨And.left, fun hvalue => ⟨hvalue, h hkeep value hvalue⟩⟩
    · exact get?_dropUnfitProfile hicc
  · rw [dropUnfitProfile, if_neg hkeep]

/-- **The block of a save is up to date.** -/
theorem update_retain (hkeep : keep.exif = true)
    (hfits : ∀ exif, Exif.toRebuild metadata = .ok (some exif) →
      (Exif.rebuild metadata header exif).Fits) :
    (Exif.update (metadata.retain header keep).1 header).1 = (metadata.retain header keep).1 := by
  have hsource : ∀ name, Exif.IsSource name →
      (metadata.retain header keep).1.get? name = metadata.get? name := by
    intro name hname
    obtain ⟨hkept, hexif, hicc⟩ := Keep.keepsField_of_isSource hkeep hname
    rw [get?_retain hexif hicc, if_pos hkept]
  have hblob : (metadata.retain header keep).1.get? Metadata.exif =
      (Exif.update metadata header).1.get? Metadata.exif := by
    rw [get?_retain_exif, if_pos hkeep]
  have hsame : (Exif.update metadata header).1 = metadata →
      Exif.toRebuild (metadata.retain header keep).1 = Exif.toRebuild metadata := by
    intro hupdate
    rw [hupdate] at hblob
    exact Exif.toRebuild_congr hblob fun name hname => hsource name (.inl hname)
  -- Unless there is a block to rebuild the update does nothing, and so finds nothing again.
  cases hrebuild : Exif.toRebuild metadata with
  | error e =>
    have hkept := hsame (by rw [Exif.update, hrebuild])
    rw [Exif.update, hkept, hrebuild]
  | ok exif? =>
    cases exif? with
    | none =>
      have hkept := hsame (by rw [Exif.update, hrebuild])
      rw [Exif.update, hkept, hrebuild]
    | some exif =>
      have hread := Exif.parse_rebuild (Exif.readable_of_toRebuild hrebuild) (hfits exif hrebuild)
      rw [Exif.update_of_toRebuild header hrebuild, Fields.get?_insert, if_pos rfl] at hblob
      have hagain := Exif.toRebuild_of_blob (getBlob_eq_some.2 hblob) hread
      rw [Exif.update_of_toRebuild header hagain, Exif.rebuild_congr hsource,
        Exif.rebuild_normalised, Exif.toBytes_normalised]
      exact Fields.insert_eq_self hblob

/-- **What survives a save survives a second one.** -/
theorem retain_retain (hfits : keep.exif = true → ∀ exif,
    Exif.toRebuild metadata = .ok (some exif) → (Exif.rebuild metadata header exif).Fits) :
    ((metadata.retain header keep).1.retain header keep).1 = (metadata.retain header keep).1 := by
  have hrefresh : ((metadata.retain header keep).1.refreshExif header keep).1 =
      (metadata.retain header keep).1 := by
    rw [refreshExif]
    split
    · rename_i hkeep
      exact update_retain hkeep (hfits hkeep)
    · rfl
  have hstrip : (metadata.retain header keep).1.strip keep = (metadata.retain header keep).1 :=
    strip_eq_self fun _ _ => keepsField_of_get?_retain
  have hprofile : (metadata.retain header keep).1.dropUnfitProfile header keep =
      (metadata.retain header keep).1 :=
    dropUnfitProfile_eq_self fun _ _ hvalue => (get?_retain_icc.1 hvalue).2.2
  rw [retain_fst, hrefresh, hstrip, hprofile]

end Metadata

/-- **What a save keeps of an image.**  Header and pixels stay. A field stays, with its value, if
every category that it has is kept; the EXIF block is then the one brought up to date, and a profile
has to fit the image as well. To keep the same of what was kept changes nothing, as long as the
rebuilt block can be written. -/
theorem Image.survivors_retain {ι : Type} (image : Image ι) (keep : Keep) :
    (image.retain keep).1.header = image.header ∧
    (image.retain keep).1.source = image.source ∧
    (∀ name, name ≠ Metadata.exif → name ≠ Metadata.icc → ∀ value,
      (image.retain keep).1.metadata.get? name = some value ↔
        image.metadata.get? name = some value ∧
          ∀ c, Category.ofField name = some c → keep.keeps c = true) ∧
    (image.retain keep).1.metadata.get? Metadata.exif =
      (if keep.exif then (Exif.update image.metadata image.header).1.get? Metadata.exif
        else none) ∧
    (∀ value, (image.retain keep).1.metadata.get? Metadata.icc = some value ↔
      keep.icc = true ∧ image.metadata.get? Metadata.icc = some value ∧
        ∀ profile, value = .blob profile → Icc.checkCompatible profile image.header = .ok ()) ∧
    ((keep.exif = true → ∀ exif, Exif.toRebuild image.metadata = .ok (some exif) →
        (Exif.rebuild image.metadata image.header exif).Fits) →
      ((image.retain keep).1.retain keep).1 = (image.retain keep).1) := by
  refine ⟨rfl, rfl, fun name hexif hicc value => ?_, Metadata.get?_retain_exif,
    fun _ => Metadata.get?_retain_icc, fun hfits => ?_⟩
  · have hkept : (image.retain keep).1.metadata.get? name =
        if keep.keepsField name then image.metadata.get? name else none :=
      Metadata.get?_retain hexif hicc
    rw [hkept, ← Keep.keepsField_iff]
    split
    · rename_i hkeeps
      exact ⟨fun h => ⟨h, hkeeps⟩, And.left⟩
    · rename_i hdropped
      exact ⟨(nomatch ·), fun h => absurd h.2 hdropped⟩
  · exact congrArg (fun metadata => { image with metadata }) (Metadata.retain_retain hfits)

/-- A save that keeps EXIF and profiles: the XMP packet goes, and so does the profile, which is too
short to be one; the orientation stays as it is. -/
theorem Image.survivors_retain_annotated :
    let image : Image Empty :=
      { header := Exif.annotatedHeader
        metadata := Exif.annotatedMetadata
        source := .direct ⟨0, 0⟩ fun _ _ => .ok [] }
    let keep : Keep := { exif := true, icc := true }
    (∀ exif, Exif.toRebuild image.metadata = .ok (some exif) →
        (Exif.rebuild image.metadata image.header exif).Fits) ∧
      (image.retain keep).1.metadata.get? Metadata.orientation = some (.int 12) ∧
      (image.retain keep).1.metadata.get? Metadata.xmp = none ∧
      (image.retain keep).1.metadata.get? Metadata.icc = none ∧
      ((image.retain keep).1.retain keep).1 = (image.retain keep).1 := by
  intro image keep
  have hfits : ∀ exif, Exif.toRebuild image.metadata = .ok (some exif) →
      (Exif.rebuild image.metadata image.header exif).Fits := by
    intro exif hexif
    have hblob : Exif.annotatedMetadata.getBlob Metadata.exif = some Exif.annotated := by rfl
    rw [Exif.toRebuild_of_blob hblob Exif.parse_annotated] at hexif
    obtain rfl := Option.some.inj (Except.ok.inj hexif)
    exact Exif.fits_annotated
  obtain ⟨-, -, hfield, -, hicc, hagain⟩ := Image.survivors_retain image keep
  have horientation := (hfield Metadata.orientation (by decide) (by decide) (.int 12)).2
    ⟨rfl, fun c hc => nomatch hc⟩
  refine ⟨hfits, horientation, ?_, ?_, hagain fun _ => hfits⟩
  · refine Option.eq_none_iff_forall_ne_some.2 fun value hvalue => ?_
    have hkept := ((hfield Metadata.xmp (by decide) (by decide) value).1 hvalue).2 .xmp rfl
    cases hkept
  · refine Option.eq_none_iff_forall_ne_some.2 fun value hvalue => ?_
    obtain ⟨-, hvalue, hcompatible⟩ := (hicc value).1 hvalue
    have hprofile : Exif.annotatedMetadata.get? Metadata.icc = some (.blob [1, 2, 3]) := by rfl
    have hok := hcompatible [1, 2, 3] (Option.some.inj (hvalue.symm.trans hprofile))
    cases hok

end Raster
