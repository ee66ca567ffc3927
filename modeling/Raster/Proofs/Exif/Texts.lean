/-
# What becomes of the texts in a block

A text goes from a block into a field of the image, with its details in brackets behind it,
and from there back into the block:

| step | text |
| --- | --- |
| `display` | the bytes up to the first zero, trimmed |
| `line` | that, ` (` and the details |
| `fieldText` | the line up to its first ` (` |
| `textEntry` | that and a zero |

So a text without ` (` in it comes back as it was displayed (`display_fieldText_iff`), and one with
it comes back cut off there.
-/
import Mathlib.Data.List.Nodup
import Raster.Proofs.Exif.Update
import Raster.Proofs.Fields
import Raster.Proofs.Text.Trim
import Raster.Proofs.Text.Utf8

namespace Raster

/-! ### Cutting -/

namespace Exif

/-- Whether a text has something like details in it. -/
def HasDetail (s : String) : Prop := [' ', '('] <:+: s.toList

instance (s : String) : Decidable (HasDetail s) := inferInstanceAs (Decidable (_ <:+: _))

/-- Cutting a detail off leaves the front of a text. -/
theorem beforeDetail_prefix : ∀ cs : List Char, beforeDetail cs <+: cs
  | [] => List.nil_prefix
  | c :: cs => by
    rw [beforeDetail]
    split
    · exact List.nil_prefix
    · exact List.cons_prefix_cons.2 ⟨rfl, beforeDetail_prefix cs⟩

/-- The first details are those that were put behind. -/
theorem beforeDetail_append_of_not {cs rest : List Char} (h : ¬[' ', '('] <:+: cs) :
    beforeDetail (cs ++ ' ' :: '(' :: rest) = cs := by
  induction cs with
  | nil => exact if_pos ⟨rfl, rfl⟩
  | cons c cs ih =>
    have hrest : ¬[' ', '('] <:+: cs := fun hin => h (List.infix_cons hin)
    have hhere : ¬(c = ' ' ∧ (cs ++ ' ' :: '(' :: rest).head? = some '(') := by
      rintro ⟨rfl, hnext⟩
      cases cs with
      | nil => exact absurd (Option.some.inj hnext) (by decide : ' ' ≠ '(')
      | cons d cs =>
        obtain rfl := Option.some.inj hnext
        exact h (List.IsPrefix.isInfix ⟨cs, rfl⟩)
    rw [List.cons_append, beforeDetail, if_neg hhere, ih hrest]

/-- Details that stand before them are found first. -/
theorem length_beforeDetail_lt {cs : List Char} (h : [' ', '('] <:+: cs) (rest : List Char) :
    (beforeDetail (cs ++ rest)).length < cs.length := by
  induction cs with
  | nil => exact absurd h (by decide)
  | cons c cs ih =>
    rw [List.cons_append, beforeDetail]
    split
    · exact Nat.succ_pos _
    · rename_i hhere
      refine Nat.succ_lt_succ (ih ((List.infix_cons_iff.1 h).resolve_left fun hbegins => hhere ?_))
      obtain ⟨tail, htail⟩ := hbegins
      obtain ⟨rfl, hcs⟩ := List.cons.inj htail
      exact ⟨rfl, by rw [← hcs]; rfl⟩

/-- The value comes first in a line, and details behind it. -/
theorem exists_toList_line (order : ByteOrder) (entry : Entry) :
    ∃ details, (line order entry).toList =
      (display order entry).toList ++ ' ' :: '(' :: details := by
  have hstart : ∀ value : String, ∀ rest : List Char,
      value.toList ++ (" (".toList ++ rest) = value.toList ++ ' ' :: '(' :: rest := fun _ _ => rfl
  simp only [line, String.toList_append, List.append_assoc]
  exact ⟨_, hstart _ _⟩

/-- A displayed text is cut where it has details itself. -/
theorem fieldText_line (order : ByteOrder) (entry : Entry) :
    (¬HasDetail (display order entry) → fieldText (line order entry) = display order entry) ∧
      (HasDetail (display order entry) →
        (fieldText (line order entry)).toList <+: (display order entry).toList ∧
          (fieldText (line order entry)).toList.length <
            (display order entry).toList.length) := by
  obtain ⟨details, hline⟩ := exists_toList_line order entry
  have htext : (fieldText (line order entry)).toList =
      beforeDetail ((display order entry).toList ++ ' ' :: '(' :: details) := by
    rw [fieldText, String.toList_ofList, hline]
  constructor
  · intro hbare
    rw [beforeDetail_append_of_not hbare] at htext
    exact String.toList_inj.1 htext
  · intro hdetail
    have hless := length_beforeDetail_lt hdetail (' ' :: '(' :: details)
    rw [← htext] at hless
    have hline : (fieldText (line order entry)).toList <+:
        (display order entry).toList ++ ' ' :: '(' :: details := by
      rw [htext]
      exact beforeDetail_prefix _
    exact ⟨List.prefix_of_prefix_length_le hline (List.prefix_append _ _) (Nat.le_of_lt hless),
      hless⟩

/-! ### A text in an entry -/

/-- A text entry in UTF-8 shows its text without the blanks around it. -/
theorem display_of_decode {entry : Entry} {text : String} (order : ByteOrder)
    (hkind : entry.kind = 2)
    (hdecode : Utf8.decode (entry.bytes.takeWhile (· != 0)) = .ok text) :
    display order entry = Text.trim text := by
  rw [display, hkind, Utf8.decodeLossy_of_decode hdecode]
  rfl

/-- No character of a text that ends at a zero byte is zero. -/
theorem zero_notMem_of_decode {bytes : Bytes} {text : String}
    (hdecode : Utf8.decode (bytes.takeWhile (· != 0)) = .ok text) : '\x00' ∉ text.toList := by
  intro hmem
  have hzero := (Bytes.mem_ofText_iff (b := 0) (by decide)).2 hmem
  rw [Utf8.ofText_of_decode hdecode] at hzero
  have hall := List.all_eq_true.1 (List.all_takeWhile (p := (· != 0)) (l := bytes))
  exact bne_iff_ne.1 (hall 0 hzero) rfl

/-- A text is displayed as it was written, but for blanks at its ends. -/
theorem display_textEntry (order : ByteOrder) (tag : UInt16) {text : String}
    (hzero : '\x00' ∉ text.toList) : display order (textEntry tag text) = Text.trim text := by
  have hbytes : (textEntry tag text).bytes.takeWhile (· != 0) = Bytes.ofText text := by
    have hall : ∀ b ∈ Bytes.ofText text, (b != 0) = true := by
      intro b hb
      refine bne_iff_ne.2 fun h => hzero ?_
      exact (Bytes.mem_ofText_iff (b := 0) (by decide)).1 (h ▸ hb)
    show (Bytes.ofText text ++ [0]).takeWhile (· != 0) = Bytes.ofText text
    rw [List.takeWhile_append_of_pos hall]
    exact List.append_nil _
  exact display_of_decode order rfl (hbytes ▸ Utf8.decode_ofText text)

/-- **A text comes back as it was displayed, unless it had something like details in it.** -/
theorem display_fieldText_iff {entry : Entry} {text : String} (order order' : ByteOrder)
    (tag : UInt16) (hkind : entry.kind = 2)
    (hdecode : Utf8.decode (entry.bytes.takeWhile (· != 0)) = .ok text) :
    display order' (textEntry tag (fieldText (line order entry))) = display order entry ↔
      ¬HasDetail (display order entry) := by
  have hshown := display_of_decode order hkind hdecode
  have hzero : '\x00' ∉ (display order entry).toList := by
    rw [hshown, Text.trim, String.toList_ofList]
    exact fun hmem => zero_notMem_of_decode hdecode ((Text.trimChars_sublist _).subset hmem)
  obtain ⟨hkept, hcut⟩ := fieldText_line order entry
  by_cases hdetail : HasDetail (display order entry)
  · obtain ⟨hbegins, hless⟩ := hcut hdetail
    refine ⟨fun heq => ?_, fun hbare => absurd hdetail hbare⟩
    rw [display_textEntry order' tag fun hmem => hzero (hbegins.subset hmem)] at heq
    have hlength := (Text.trimChars_sublist (fieldText (line order entry)).toList).length_le
    rw [← heq, Text.trim, String.toList_ofList] at hless
    exact absurd hless (Nat.not_lt.2 hlength)
  · refine ⟨fun _ => hdetail, fun _ => ?_⟩
    rw [hkept hdetail, display_textEntry order' tag hzero, hshown, Text.trim, Text.trim,
      String.toList_ofList, Text.trimChars_trimChars]

/-! ### From one block to the next -/

section Attach

variable {blob : Bytes} {exif : Exif}

/-- The fields of an image that was just given a block, but for orientation and resolution. -/
theorem get?_attach (header : Header) (hparse : parse blob = .ok exif) {name : String}
    (horientation : name ≠ Metadata.orientation) (hunit : name ≠ Metadata.resolutionUnit) :
    (attach {} header blob).1.get? name =
      ((exif.fields.map fun f => (f.1, MetaValue.text f.2)).foldl (fun m f => m.insert f.1 f.2)
        (Fields.empty.insert Metadata.exif (.blob (marker ++ unmarked blob)))).get? name := by
  rw [attach, hparse, List.foldl_map]
  dsimp only
  cases exif.orientation with
  | none =>
    dsimp only
    split
    · split
      · rw [Fields.get?_insert, if_neg hunit]
        rfl
      · rfl
    · rfl
  | some n =>
    dsimp only
    split
    · split
      · rw [Fields.get?_insert, if_neg hunit, Fields.get?_insert, if_neg horientation]
        rfl
      · rw [Fields.get?_insert, if_neg horientation]
        rfl
    · rw [Fields.get?_insert, if_neg horientation]
      rfl

/-- A field of a tag is none of the other fields. -/
theorem field_ne {name : String} (hname : isFieldName name = false) (info : TagInfo) :
    info.field ≠ name := by
  rintro rfl
  exact Bool.false_ne_true (hname.symm.trans (isFieldName_field info))

/-- A text field is a field. -/
theorem get?_of_getText {metadata : Metadata} {name text : String}
    (h : metadata.getText name = some text) : metadata.get? name = some (.text text) := by
  rw [Metadata.getText] at h
  split at h
  · rename_i found hfound
    rw [hfound, Option.some.inj h]
  · cases h

/-- No two tags share a field. -/
theorem nodup_fields : (tags.map TagInfo.field).Nodup := by decide +kernel

/-- The fields that a block gives are those of its known tags, one line each. -/
theorem mem_fields {f : String × String} : f ∈ exif.fields ↔
    ∃ info ∈ tags, ∃ entry, exif.entryOf info = some entry ∧
      (info.field, line exif.order entry) = f := by
  rw [fields, List.mem_filterMap]
  simp only [Option.map_eq_some_iff]

/-- What a field of a tag says on an image that was just given a block. -/
theorem getText_attach (header : Header) (hparse : parse blob = .ok exif) {info : TagInfo}
    (hinfo : info ∈ tags) {entry : Entry} (hentry : exif.entryOf info = some entry) :
    (attach {} header blob).1.getText info.field = some (line exif.order entry) := by
  have hmem : (info.field, MetaValue.text (line exif.order entry)) ∈
      exif.fields.map fun f => (f.1, MetaValue.text f.2) :=
    List.mem_map.2 ⟨_, mem_fields.2 ⟨info, hinfo, entry, hentry, rfl⟩, rfl⟩
  have hsame : ∀ f ∈ exif.fields.map fun f => (f.1, MetaValue.text f.2), f.1 = info.field →
      f.2 = .text (line exif.order entry) := by
    intro f hf heq
    obtain ⟨g, hg, rfl⟩ := List.mem_map.1 hf
    obtain ⟨other, hother, found, hfound, rfl⟩ := mem_fields.1 hg
    obtain rfl := List.inj_on_of_nodup_map nodup_fields hother hinfo heq
    rw [Option.some.inj (hfound.symm.trans hentry)]
  rw [Metadata.getText, get?_attach header hparse (field_ne (by decide) info)
    (field_ne (by decide) info), Fields.get?_foldl_insert_of_mem hmem hsame]

/-- The block is stored with its marker, once. -/
theorem getBlob_attach (header : Header) (hparse : parse blob = .ok exif) :
    (attach {} header blob).1.getBlob Metadata.exif = some (marker ++ unmarked blob) := by
  have hother : ∀ f ∈ exif.fields.map fun f => (f.1, MetaValue.text f.2), f.1 ≠ Metadata.exif := by
    intro f hf
    obtain ⟨g, hg, rfl⟩ := List.mem_map.1 hf
    obtain ⟨info, -, entry, -, rfl⟩ := mem_fields.1 hg
    exact field_ne (by decide) info
  rw [Metadata.getBlob, get?_attach header hparse (by decide) (by decide),
    Fields.get?_foldl_insert hother, Fields.get?_insert, if_pos rfl]

/-- The mark before a block is not part of it. -/
theorem parse_marked (blob : Bytes) : parse (marker ++ unmarked blob) = parse blob := by
  rw [parse, parse, unmarked_marker_append]

/-- Where a new block can be written, its texts are those in the fields. -/
theorem exists_update_attach (header header' : Header) (hparse : parse blob = .ok exif)
    (hfits : (rebuild (attach {} header blob).1 header' exif).Fits) :
    ∃ blob' exif',
      (update (attach {} header blob).1 header').1.getBlob Metadata.exif = some blob' ∧
      parse blob' = .ok exif' ∧
      ∀ info ∈ tags, info.isText = true → ∀ entry, exif.entryOf info = some entry →
        exif'.entryOf info = some (textEntry info.tag (fieldText (line exif.order entry))) := by
  have hrebuild := toRebuild_of_blob (getBlob_attach header hparse) (parse_marked blob ▸ hparse)
  rw [update_of_toRebuild header' hrebuild]
  refine ⟨_, _, getBlob_insert _ _ _, parse_rebuild (readable_of_parse hparse) hfits, ?_⟩
  intro info hinfo htext entry hentry
  have hmem : info ∈ tags.filter (·.isText) := List.mem_filter.2 ⟨hinfo, htext⟩
  have hfield := getText_attach header hparse hinfo hentry
  have hchange : Change.put info.home (textEntry info.tag (fieldText (line exif.order entry))) ∈
      changes (attach {} header blob).1 header' exif.order := by
    have hany : (attach {} header blob).1.names.any isFieldName = true :=
      Fields.any_names.2 ⟨_, _, isFieldName_field info, get?_of_getText hfield⟩
    refine List.mem_append_left _ ?_
    rw [textChanges, if_pos hany]
    refine List.mem_map.2 ⟨info, hmem, ?_⟩
    rw [textChange, hfield]
  have hfound := find?_rebuild_of_put (wellFormed_textEntry (isPointer_text info hmem)) hchange
  obtain ⟨directory, hdirectory, -⟩ := Option.bind_eq_some_iff.1 hentry
  rw [hdirectory] at hfound
  exact hfound

/-- **A save keeps the texts of a block,** but for those that have something like details in them:
where a new block can be written, what is displayed of the others is the same. -/
theorem update_attach_text (header header' : Header) (hparse : parse blob = .ok exif)
    (hfits : (rebuild (attach {} header blob).1 header' exif).Fits) :
    ∃ blob' exif',
      (update (attach {} header blob).1 header').1.getBlob Metadata.exif = some blob' ∧
      parse blob' = .ok exif' ∧
      ∀ info ∈ tags, info.isText = true → ∀ entry text, exif.entryOf info = some entry →
        entry.kind = 2 → Utf8.decode (entry.bytes.takeWhile (· != 0)) = .ok text →
          ∃ entry', exif'.entryOf info = some entry' ∧ entry'.kind = 2 ∧
            (display exif'.order entry' = display exif.order entry ↔
              ¬HasDetail (display exif.order entry)) := by
  obtain ⟨blob', exif', hblob, hread, hentries⟩ := exists_update_attach header header' hparse hfits
  refine ⟨blob', exif', hblob, hread, fun info hinfo htext entry text hentry hkind hdecode => ?_⟩
  exact ⟨_, hentries info hinfo htext entry hentry, rfl,
    display_fieldText_iff _ _ _ hkind hdecode⟩

end Attach

/-- A block with a maker `A(B)` and a model `A (B)`. -/
def captioned : Bytes :=
  [0x4D, 0x4D, 0, 42, 0, 0, 0, 8, 0, 2,
    0x01, 0x0F, 0, 2, 0, 0, 0, 5, 0, 0, 0, 38,
    0x01, 0x10, 0, 2, 0, 0, 0, 6, 0, 0, 0, 44, 0, 0, 0, 0,
    0x41, 0x28, 0x42, 0x29, 0, 0, 0x41, 0x20, 0x28, 0x42, 0x29, 0]

/-- The maker. -/
def makeEntry : Entry := .value 0x010F 2 5 [0x41, 0x28, 0x42, 0x29, 0]

/-- The model. -/
def modelEntry : Entry := .value 0x0110 2 6 [0x41, 0x20, 0x28, 0x42, 0x29, 0]

/-- The block as it is read. -/
def captionedBlock : Exif := ⟨.big, [makeEntry, modelEntry]⟩

/-- The bytes are read as that block. -/
theorem parse_captioned : parse captioned = .ok captionedBlock := by
  have hunmarked : unmarked captioned = captioned := by decide
  have horder : orderOf captioned = some .big := by decide
  simp only [parse, hunmarked, horder]
  rfl

/-- Both fields end in a detail, and the model has one of its own before it. -/
theorem attach_captioned : (attach {} annotatedHeader captioned).1 =
    ((Fields.empty.insert Metadata.exif (.blob (marker ++ captioned))).insert "exif-ifd0-Make"
      (.text "A(B) (A(B), ASCII, 5 components, 5 bytes)")).insert "exif-ifd0-Model"
        (.text "A (B) (A (B), ASCII, 6 components, 6 bytes)") := by
  have hunmarked : unmarked captioned = captioned := by decide
  have hfields : captionedBlock.fields =
      [("exif-ifd0-Make", "A(B) (A(B), ASCII, 5 components, 5 bytes)"),
        ("exif-ifd0-Model", "A (B) (A (B), ASCII, 6 components, 6 bytes)")] := by decide +kernel
  have horientation : captionedBlock.orientation = none := by rfl
  have hresolution : captionedBlock.resolution = none := by rfl
  simp only [attach, parse_captioned, hfields, horientation, hresolution, hunmarked]
  rfl

/-- Written back, the model has lost it. -/
theorem rebuild_captioned :
    rebuild (attach {} annotatedHeader captioned).1 annotatedHeader captionedBlock = ⟨.big, [
      makeEntry, .value 0x0110 2 2 [0x41, 0],
      rationalEntry .big 0x011A (annotatedHeader.xres.toFloat * 25.4),
      rationalEntry .big 0x011B (annotatedHeader.yres.toFloat * 25.4),
      .value 0x0128 3 1 [0, 2]]⟩ := by
  rw [attach_captioned]
  rfl

/-- The block can be written. -/
theorem fits_captioned :
    (rebuild (attach {} annotatedHeader captioned).1 annotatedHeader captionedBlock).Fits := by
  rw [rebuild_captioned]
  refine ⟨fun s es hes => ?_, short_of_space ?_⟩
  · cases s with
    | main => obtain rfl := Option.some.inj hes; decide
    | exif => cases hes
    | gps => cases hes
    | interop => cases hes
  · simp [Entry.spaceAll, Entry.space, rationalEntry, makeEntry, ByteOrder.length_put32,
      UInt32.size]

/-- The maker is displayed as before: no blank stands before its bracket. -/
theorem update_attach_text_captioned :
    parse captioned = .ok captionedBlock ∧
      (rebuild (attach {} annotatedHeader captioned).1 annotatedHeader captionedBlock).Fits ∧
      ∃ blob exif make,
        (update (attach {} annotatedHeader captioned).1 annotatedHeader).1.getBlob Metadata.exif =
          some blob ∧
        parse blob = .ok exif ∧ exif.entryOf ⟨.main, 0x010F, "Make", true⟩ = some make ∧
        display exif.order make = "A(B)" := by
  obtain ⟨blob, exif, hblob, hread, htexts⟩ :=
    update_attach_text annotatedHeader annotatedHeader parse_captioned fits_captioned
  obtain ⟨make, hmake, -, hsame⟩ := htexts ⟨.main, 0x010F, "Make", true⟩
    (by simp [tags]) rfl makeEntry "A(B)" rfl rfl (by rfl)
  have hshown : display captionedBlock.order makeEntry = "A(B)" := by decide +kernel
  refine ⟨parse_captioned, fits_captioned, blob, exif, make, hblob, hread, hmake, ?_⟩
  rw [hsame.2 (by rw [hshown]; decide), hshown]

/-- **What a save cuts:** the model `A (B)` of the same block becomes `A`. -/
theorem update_attach_text_cut :
    parse captioned = .ok captionedBlock ∧
      captionedBlock.entryOf ⟨.main, 0x0110, "Model", true⟩ = some modelEntry ∧
      Utf8.decode (modelEntry.bytes.takeWhile (· != 0)) = .ok "A (B)" ∧
      display captionedBlock.order modelEntry = "A (B)" ∧
      ∃ blob exif model,
        (update (attach {} annotatedHeader captioned).1 annotatedHeader).1.getBlob Metadata.exif =
          some blob ∧
        parse blob = .ok exif ∧ exif.entryOf ⟨.main, 0x0110, "Model", true⟩ = some model ∧
        display exif.order model = "A" := by
  obtain ⟨blob, exif, hblob, hread, hentries⟩ :=
    exists_update_attach annotatedHeader annotatedHeader parse_captioned fits_captioned
  have hmodel := hentries ⟨.main, 0x0110, "Model", true⟩ (by simp [tags]) rfl modelEntry rfl
  have hcut : textEntry 0x0110 (fieldText (line captionedBlock.order modelEntry)) =
      .value 0x0110 2 2 [0x41, 0] := by rfl
  refine ⟨parse_captioned, rfl, by rfl, by decide +kernel, blob, exif, _, hblob, hread, hmodel, ?_⟩
  rw [hcut]
  cases exif.order <;> decide +kernel

end Exif

end Raster
