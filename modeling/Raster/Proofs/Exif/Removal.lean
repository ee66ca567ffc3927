/-
# Removing a text from a block

An image says that a text is to go by having no field for it. It says so only where it has fields
of tags at all: an image without any may have been given its block in another way, and then its
texts stay (`updateText`). So what becomes of a tag whose field is removed depends on the others:

| other known tags in the block | the tag |
| --- | --- |
| some | is gone (`entryOf_rebuild_of_any`) |
| none | stays (`entryOf_rebuild_of_not_any`) |

Reading the new block back finds no tag that is gone, even where it has more entries than its
counts can say: what is cut off is cut off at the end (`entryOf_cut`).
-/
import Raster.Proofs.Exif.Texts

namespace Raster

namespace Exif

/-! ### What is read of a block that was cut -/

/-- Cutting counts keeps the tags. -/
@[simp] theorem Entry.tag_cut (e : Entry) : e.cut.tag = e.tag := by
  cases e with
  | value tag kind count bytes => rw [Entry.cut_value]
  | directory tag kind es => rw [Entry.cut_directory]; rfl

/-- What is found in a cut table was there before. -/
theorem find?_cutTable {tag : UInt16} {es : List Entry} {e : Entry}
    (h : find? tag (Entry.cutTable es) = some e) : ∃ e', find? tag es = some e' ∧ e'.cut = e := by
  have hwhole := (List.take_prefix _ _).find?_eq_some h
  rw [List.find?_map] at hwhole
  simp only [Function.comp_def, Entry.tag_cut] at hwhole
  exact Option.map_eq_some_iff.1 hwhole

/-- So is every directory that can still be reached. -/
theorem follow_cutTable :
    ∀ {path : List UInt16} {es sub : List Entry}, follow path (Entry.cutTable es) = some sub →
      ∃ sub', follow path es = some sub' ∧ Entry.cutTable sub' = sub
  | [], es, sub, h => ⟨es, rfl, Option.some.inj h⟩
  | tag :: path, es, sub, h => by
    obtain ⟨e, he, hsub⟩ := Option.bind_eq_some_iff.1 h
    obtain ⟨e', he', rfl⟩ := find?_cutTable he
    cases e' with
    | value =>
      rw [Entry.cut_value] at hsub
      cases hsub
    | directory t kind inner =>
      rw [Entry.cut_directory] at hsub
      obtain ⟨sub', hsub', hcut⟩ := follow_cutTable hsub
      refine ⟨sub', ?_, hcut⟩
      rw [follow, he']
      exact hsub'

/-- **Cutting a block makes no tag appear.** -/
theorem entryOf_cut {exif : Exif} {info : TagInfo} (h : exif.entryOf info = none) :
    exif.cut.entryOf info = none := by
  refine Option.eq_none_iff_forall_ne_some.2 fun e he => ?_
  obtain ⟨es, hes, hfirst⟩ := Option.bind_eq_some_iff.1 he
  obtain ⟨es', hes', rfl⟩ := follow_cutTable hes
  obtain ⟨e', he', -⟩ := find?_cutTable hfirst
  have hsome : exif.entryOf info = some e' := Option.bind_eq_some_iff.2 ⟨es', hes', he'⟩
  cases h.symm.trans hsome

/-! ### Fields of tags -/

/-- The fields of an image that was just given a block, but for that of one tag. -/
def fieldsWithout (header : Header) (blob : Bytes) (info : TagInfo) : Metadata :=
  (attach {} header blob).1.erase info.field

section Erase

variable {blob : Bytes} {exif : Exif} {info : TagInfo}

/-- An image that was just given a block has the fields of the tags in it, and no others. -/
theorem exists_tag_of_get?_attach (header : Header) (hparse : parse blob = .ok exif) {name : String}
    (hname : isFieldName name = true) {value : MetaValue}
    (h : (attach {} header blob).1.get? name = some value) :
    ∃ other ∈ tags, (exif.entryOf other).isSome ∧ other.field = name := by
  have hnot : ∀ {other : String}, isFieldName other = false → name ≠ other := by
    rintro other hother rfl
    exact Bool.false_ne_true (hother.symm.trans hname)
  rw [get?_attach header hparse (hnot (by decide)) (hnot (by decide))] at h
  by_contra hnone
  have hother : ∀ f ∈ exif.fields.map fun f => (f.1, MetaValue.text f.2), f.1 ≠ name := by
    rintro f hf rfl
    obtain ⟨g, hg, rfl⟩ := List.mem_map.1 hf
    obtain ⟨other, hmem, entry, hentry, rfl⟩ := mem_fields.1 hg
    exact hnone ⟨other, hmem, Option.isSome_of_eq_some hentry, rfl⟩
  rw [Fields.get?_foldl_insert hother, Fields.get?_insert, if_neg (hnot (by decide)),
    Fields.get?_empty] at h
  cases h

/-- **Whether there are fields of tags left** when that of one tag is removed. -/
theorem any_isFieldName_fieldsWithout (header : Header) (hparse : parse blob = .ok exif)
    (hinfo : info ∈ tags) :
    (fieldsWithout header blob info).names.any isFieldName = true ↔
      ∃ other ∈ tags, other ≠ info ∧ (exif.entryOf other).isSome := by
  rw [fieldsWithout, Fields.any_names]
  constructor
  · rintro ⟨name, value, hname, hvalue⟩
    rw [Fields.get?_erase] at hvalue
    split at hvalue
    · cases hvalue
    · rename_i hkept
      obtain ⟨other, hother, hthere, rfl⟩ := exists_tag_of_get?_attach header hparse hname hvalue
      exact ⟨other, hother, fun heq => hkept (congrArg _ heq), hthere⟩
  · rintro ⟨other, hother, hne, hthere⟩
    obtain ⟨entry, hentry⟩ := Option.isSome_iff_exists.1 hthere
    have hfield : other.field ≠ info.field :=
      fun heq => hne (List.inj_on_of_nodup_map nodup_fields hother hinfo heq)
    have htext := get?_of_getText (getText_attach header hparse hother hentry)
    exact ⟨other.field, _, isFieldName_field other, by rwa [Fields.get?_erase, if_neg hfield]⟩

/-- The block itself is left, for only the field of a tag is taken away. -/
theorem getBlob_fieldsWithout (header : Header) (hparse : parse blob = .ok exif) (info : TagInfo) :
    (fieldsWithout header blob info).getBlob Metadata.exif = some (marker ++ unmarked blob) := by
  rw [Metadata.getBlob, fieldsWithout, Fields.get?_erase, if_neg (field_ne (by decide) info).symm]
  exact getBlob_attach header hparse

/-- The field is gone. -/
theorem getText_fieldsWithout (header : Header) (blob : Bytes) (info : TagInfo) :
    (fieldsWithout header blob info).getText info.field = none := by
  rw [Metadata.getText, fieldsWithout, Fields.get?_erase, if_pos rfl]

/-! ### The tag afterwards -/

variable {metadata : Metadata}

/-- What stands under a tag that is no pointer is a value. -/
theorem wellFormed_entryOf (hread : exif.Readable) (hplain : isPointer info.tag = false) {e : Entry}
    (he : exif.entryOf info = some e) : e.WellFormed 0 := by
  obtain ⟨es, hes, hfirst⟩ := Option.bind_eq_some_iff.1 he
  rw [directory?_eq_below] at hes
  obtain ⟨levels, hall⟩ := hread.shape.of_below hes
  rw [← head?_withTag] at hfirst
  obtain ⟨hmem, htag⟩ := mem_withTag.1 (List.mem_of_head? hfirst)
  cases hall e hmem with
  | value plain full => exact .value plain full
  | directory pointer each =>
    rw [Entry.tag] at htag
    rw [htag, hplain] at pointer
    cases pointer

/-- A text without a field is dropped, where there are other fields of tags. -/
theorem entryOf_rebuild_of_any (header : Header) (hinfo : info ∈ tags) (htext : info.isText = true)
    (hany : metadata.names.any isFieldName = true) (hfield : metadata.getText info.field = none) :
    (rebuild metadata header exif).normalised.entryOf info = none := by
  have hmem : info ∈ tags.filter (·.isText) := List.mem_filter.2 ⟨hinfo, htext⟩
  have hchange : Change.drop info.home info.tag ∈ changes metadata header exif.order := by
    refine List.mem_append_left _ ?_
    rw [textChanges, if_pos hany]
    refine List.mem_map.2 ⟨info, hmem, ?_⟩
    rw [textChange, hfield]
  have hlisting : listing info.home.place info.tag (rebuild metadata header exif).entries =
      (listing info.home.place info.tag exif.entries).map fun _ => [] :=
    listing_rebuild_of_mem hchange
  refine find?_of_listing (fun e he => by cases he) ?_
  rw [listing_normalised, hlisting]
  cases listing info.home.place info.tag exif.entries <;> rfl

/-- **Where there is no field of a tag at all, every text stays.** -/
theorem entryOf_rebuild_of_not_any (header : Header) (hread : exif.Readable)
    (hinfo : info ∈ tags) (htext : info.isText = true)
    (hnone : metadata.names.any isFieldName = false) :
    (rebuild metadata header exif).normalised.entryOf info = exif.entryOf info := by
  have hmem : info ∈ tags.filter (·.isText) := List.mem_filter.2 ⟨hinfo, htext⟩
  have htarget : (info.home, info.tag) ∈ textTargets := List.mem_map_of_mem hmem
  have hsublist : ((changes metadata header exif.order).map Change.target).Sublist
      (headerTargets ++ [(.main, orientationTag)]) := by
    rw [changes, textChanges, if_neg (hnone ▸ Bool.false_ne_true), List.nil_append,
      List.map_append]
    exact (List.Sublist.refl headerTargets).append (target_orientationChanges metadata exif.order)
  have hlisting : listing info.home.place info.tag (rebuild metadata header exif).entries =
      listing info.home.place info.tag exif.entries := by
    rw [rebuild_eq_foldl]
    refine listing_foldl_of_ne plain_changes (fun c hc heq => ?_) exif
    have hother := hsublist.subset (List.mem_map_of_mem hc)
    rw [show c.target = (info.home, info.tag) from
      Prod.ext (Section.place_injective heq.1).symm heq.2.symm] at hother
    exact List.disjoint_of_nodup_append nodup_owned htarget hother
  have hvalue := fun e => wellFormed_entryOf (e := e) hread (isPointer_text info hmem)
  refine find?_of_listing hvalue ?_
  rw [listing_normalised, hlisting, ← find?_directory?]
  cases hentry : exif.entryOf info with
  | none => exact congrArg (Option.map _) hentry
  | some e =>
    refine (congrArg (Option.map _) hentry).trans ?_
    rw [Option.map_some, (hvalue e hentry).plain.2]

/-- What is read of the block of an image without that field. -/
theorem exists_update_fieldsWithout (header header' : Header) (hparse : parse blob = .ok exif)
    (hshort : (rebuild (fieldsWithout header blob info) header' exif).toTiff.length <
      UInt32.size) :
    ∃ blob', (update (fieldsWithout header blob info) header').1.getBlob Metadata.exif =
        some blob' ∧
      parse blob' = .ok (rebuild (fieldsWithout header blob info) header' exif).normalised.cut := by
  have hblob := getBlob_fieldsWithout header hparse info
  have hrebuild := toRebuild_of_blob hblob ((parse_marked blob).trans hparse)
  have hshape := (readable_of_parse hparse).shape
  rw [update_of_toRebuild header' hrebuild]
  exact ⟨_, getBlob_insert _ _ _, parse_toBytes_cut (wellFormed_rebuild _ header' hshape) hshort⟩

/-- **What becomes of a text whose field is removed.**  The block of an image that just came from a
loader and lost the field of one text, and nothing else, is without that tag once it is brought up
to date, as long as any other known tag stands in the block. If none does the tag stays. -/
theorem update_erase_text (header header' : Header) (hparse : parse blob = .ok exif)
    (hinfo : info ∈ tags) (htext : info.isText = true)
    (hshort : (rebuild (fieldsWithout header blob info) header' exif).toTiff.length <
      UInt32.size) :
    ∃ blob' exif',
      (update (fieldsWithout header blob info) header').1.getBlob Metadata.exif = some blob' ∧
      parse blob' = .ok exif' ∧
      ((∃ other ∈ tags, other ≠ info ∧ (exif.entryOf other).isSome) →
        exif'.entryOf info = none) ∧
      ((∀ other ∈ tags, (exif.entryOf other).isSome → other = info) →
        (rebuild (fieldsWithout header blob info) header' exif).CountsFit →
          exif'.entryOf info = exif.entryOf info) := by
  have hany := any_isFieldName_fieldsWithout header hparse hinfo
  have hfield := getText_fieldsWithout header blob info
  obtain ⟨blob', hblob', hparse'⟩ := exists_update_fieldsWithout header header' hparse hshort
  refine ⟨blob', _, hblob', hparse', fun hothers => ?_, fun halone hcounts => ?_⟩
  · exact entryOf_cut (entryOf_rebuild_of_any header' hinfo htext (hany.2 hothers) hfield)
  · have hnone : (fieldsWithout header blob info).names.any isFieldName = false := by
      refine Bool.eq_false_iff.2 fun hsome => ?_
      obtain ⟨other, hother, hne, hthere⟩ := hany.1 hsome
      exact hne (halone other hother hthere)
    rw [cut_eq_self_iff.2 (countsFit_normalised_iff.2 hcounts)]
    exact entryOf_rebuild_of_not_any header' (readable_of_parse hparse) hinfo htext hnone

end Erase

/-- The maker. -/
def makeTag : TagInfo := ⟨.main, 0x010F, "Make", true⟩

/-- The model. -/
def modelTag : TagInfo := ⟨.main, 0x0110, "Model", true⟩

/-- What an image writes into a block that names its maker only. -/
def makerOf (header : Header) : List Entry :=
  [makeEntry, rationalEntry .big 0x011A (header.xres.toFloat * 25.4),
    rationalEntry .big 0x011B (header.yres.toFloat * 25.4), .value 0x0128 3 1 [0, 2]]

/-- The block is far too short for its offsets to overflow. -/
theorem short_makerOf (header : Header) : (Exif.mk .big (makerOf header)).toTiff.length <
    UInt32.size := by
  refine short_of_space ?_
  simp [makerOf, Entry.spaceAll, Entry.space, rationalEntry, makeEntry, ByteOrder.length_put32,
    UInt32.size]

/-- A block with a maker and a model, and no more model. -/
theorem update_erase_text_captioned :
    parse captioned = .ok captionedBlock ∧ modelTag ∈ tags ∧ modelTag.isText = true ∧
      (rebuild (fieldsWithout annotatedHeader captioned modelTag) annotatedHeader
        captionedBlock).toTiff.length < UInt32.size ∧
      captionedBlock.entryOf modelTag = some modelEntry ∧
      ∃ blob exif,
        (update (fieldsWithout annotatedHeader captioned modelTag) annotatedHeader).1.getBlob
          Metadata.exif = some blob ∧
        parse blob = .ok exif ∧ exif.entryOf modelTag = none := by
  have htag : modelTag ∈ tags := by simp [tags, modelTag]
  have hrebuilt : rebuild (fieldsWithout annotatedHeader captioned modelTag) annotatedHeader
      captionedBlock = ⟨.big, makerOf annotatedHeader⟩ := by
    rw [fieldsWithout, attach_captioned]
    rfl
  have hshort : (rebuild (fieldsWithout annotatedHeader captioned modelTag) annotatedHeader
      captionedBlock).toTiff.length < UInt32.size := hrebuilt ▸ short_makerOf annotatedHeader
  obtain ⟨blob, exif, hblob, hread, hgone, -⟩ :=
    update_erase_text annotatedHeader annotatedHeader parse_captioned htag rfl hshort
  have hmake : makeTag ∈ tags ∧ makeTag ≠ modelTag ∧ (captionedBlock.entryOf makeTag).isSome :=
    ⟨by simp [tags, makeTag], by simp [makeTag, modelTag], rfl⟩
  exact ⟨parse_captioned, htag, rfl, hshort, rfl, blob, exif, hblob, hread, hgone ⟨_, hmake⟩⟩

/-- A block with nothing but a maker `A(B)`. -/
def makerOnly : Bytes :=
  [0x4D, 0x4D, 0, 42, 0, 0, 0, 8, 0, 1,
    0x01, 0x0F, 0, 2, 0, 0, 0, 5, 0, 0, 0, 26, 0, 0, 0, 0,
    0x41, 0x28, 0x42, 0x29, 0]

/-- The bytes are read as a block with one entry. -/
theorem parse_makerOnly : parse makerOnly = .ok ⟨.big, [makeEntry]⟩ := by
  have hunmarked : unmarked makerOnly = makerOnly := by decide
  have horder : orderOf makerOnly = some .big := by decide
  simp only [parse, hunmarked, horder]
  rfl

/-- Without the field of its only tag an image has nothing but the block. -/
theorem fieldsWithout_makerOnly : fieldsWithout annotatedHeader makerOnly makeTag =
    Fields.empty.insert Metadata.exif (.blob (marker ++ makerOnly)) := by
  have hunmarked : unmarked makerOnly = makerOnly := by decide
  have hfields : fields ⟨.big, [makeEntry]⟩ =
      [("exif-ifd0-Make", "A(B) (A(B), ASCII, 5 components, 5 bytes)")] := by decide +kernel
  have horientation : orientation ⟨.big, [makeEntry]⟩ = none := by rfl
  have hresolution : resolution ⟨.big, [makeEntry]⟩ = none := by rfl
  simp only [fieldsWithout, attach, parse_makerOnly, hfields, horientation, hresolution, hunmarked]
  rfl

/-- **What a removed field leaves behind:** the only known tag of a block is not dropped from it. -/
theorem update_erase_text_sole :
    parse makerOnly = .ok ⟨.big, [makeEntry]⟩ ∧ makeTag ∈ tags ∧ makeTag.isText = true ∧
      (attach {} annotatedHeader makerOnly).1.getText makeTag.field =
        some "A(B) (A(B), ASCII, 5 components, 5 bytes)" ∧
      ∃ blob exif,
        (update (fieldsWithout annotatedHeader makerOnly makeTag) annotatedHeader).1.getBlob
          Metadata.exif = some blob ∧
        parse blob = .ok exif ∧ exif.entryOf makeTag = some makeEntry := by
  have hrebuilt : rebuild (fieldsWithout annotatedHeader makerOnly makeTag) annotatedHeader
      ⟨.big, [makeEntry]⟩ = ⟨.big, makerOf annotatedHeader⟩ := by
    rw [fieldsWithout_makerOnly]
    rfl
  have hread := readable_of_parse parse_makerOnly
  have hcounts := countsFit_rebuild hread fun s es hes => by
    rw [hrebuilt] at hes
    cases s with
    | main => obtain rfl := Option.some.inj hes; decide
    | exif => cases hes
    | gps => cases hes
    | interop => cases hes
  have hnone : (fieldsWithout annotatedHeader makerOnly makeTag).names.any isFieldName = false := by
    rw [fieldsWithout_makerOnly]
    rfl
  have htag : makeTag ∈ tags := by simp [tags, makeTag]
  have hstays := entryOf_rebuild_of_not_any annotatedHeader hread htag rfl hnone
  obtain ⟨blob, hblob, hparse⟩ := exists_update_fieldsWithout annotatedHeader annotatedHeader
    parse_makerOnly (hrebuilt ▸ short_makerOf annotatedHeader)
  rw [cut_eq_self_iff.2 (countsFit_normalised_iff.2 hcounts)] at hparse
  have hline : line .big makeEntry = "A(B) (A(B), ASCII, 5 components, 5 bytes)" := by
    decide +kernel
  exact ⟨parse_makerOnly, htag, rfl,
    (getText_attach annotatedHeader parse_makerOnly htag rfl).trans (congrArg some hline),
    blob, _, hblob, hparse, hstays⟩

end Exif

end Raster
