/-
# What bringing a block up to date changes

The block of an image is rebuilt by a list of changes (`rebuild_eq_foldl`), no two
of them about the same:

| directory | tags | change |
| --- | --- | --- |
| any known one | text tags | `put`, or `drop` where the field is missing |
| main | resolutions and their unit | `put` |
| Exif | pixel dimensions | `replace` |
| main | orientation | `put`, if the image has one |

So whatever else stands in a block, at any depth, stands there afterwards
(`update_frame`), and to bring it up to date again changes nothing
(`rebuild_normalised`).
-/
import Raster.Exif.Metadata
import Raster.Proofs.Exif.Changes
import Raster.Proofs.Exif.Size

namespace Raster

namespace Exif

/-! ### The changes -/

/-- What becomes of a text tag. -/
def textChange (metadata : Metadata) (info : TagInfo) : Change :=
  match metadata.getText info.field with
  | some value => .put info.home (textEntry info.tag (fieldText value))
  | none => .drop info.home info.tag

/-- What becomes of the text tags. -/
def textChanges (metadata : Metadata) : List Change :=
  if metadata.names.any isFieldName then (tags.filter (·.isText)).map (textChange metadata) else []

/-- What the header says. -/
def headerChanges (metadata : Metadata) (header : Header) (order : ByteOrder) : List Change :=
  let unit := ResolutionUnit.ofMetadata (metadata.getText Metadata.resolutionUnit)
  [.put .main (rationalEntry order xResolutionTag (header.xres.toFloat * unit.millimetres)),
    .put .main (rationalEntry order yResolutionTag (header.yres.toFloat * unit.millimetres)),
    .put .main (shortEntry order resolutionUnitTag unit.code),
    .replace .exif (longEntry order pixelXTag header.width),
    .replace .exif (longEntry order pixelYTag header.height)]

/-- A number as an orientation, the nearest one in `1..8`. -/
def nearestOrientation (n : Int64) : UInt16 := UInt16.ofNat (max 1 (min 8 n.toInt)).toNat

/-- What the orientation of the image says. -/
def orientationChanges (metadata : Metadata) (order : ByteOrder) : List Change :=
  match metadata.getInt Metadata.orientation with
  | some n => [.put .main (shortEntry order orientationTag (nearestOrientation n))]
  | none => []

/-- What an image says that its block is to say. -/
def changes (metadata : Metadata) (header : Header) (order : ByteOrder) : List Change :=
  textChanges metadata ++ (headerChanges metadata header order ++ orientationChanges metadata order)

/-- Writing a tag of the image into the block is one change. -/
theorem updateTag_eq (metadata : Metadata) (exif : Exif) (info : TagInfo) :
    updateTag metadata exif info = (textChange metadata info).apply exif := by
  rw [updateTag, textChange]
  cases metadata.getText info.field <;> rfl

/-- Writing all texts is one change after another. -/
theorem updateText_eq (metadata : Metadata) (exif : Exif) :
    updateText metadata exif = (textChanges metadata).foldl Change.apply exif := by
  rw [updateText, textChanges]
  split
  · rw [List.foldl_map]
    have hstep : updateTag metadata = fun block info => (textChange metadata info).apply block :=
      funext fun block => funext (updateTag_eq metadata block)
    rw [hstep]
  · rfl

/-- The header's changes, one after the other, are what the resolution and the dimensions set. -/
theorem foldl_headerChanges (metadata : Metadata) (header : Header) (exif : Exif) :
    (headerChanges metadata header exif.order).foldl Change.apply exif =
      (exif.setResolution header.xres.toFloat header.yres.toFloat
        (.ofMetadata (metadata.getText Metadata.resolutionUnit))).setDimensions
          header.width header.height := by
  rw [setDimensions, ← edit_edit]
  rfl

/-- Writing the orientation is one change or none. -/
theorem foldl_orientationChanges (metadata : Metadata) (exif : Exif) :
    (orientationChanges metadata exif.order).foldl Change.apply exif =
      match metadata.getInt Metadata.orientation with
      | some n => exif.setOrientation (nearestOrientation n)
      | none => exif := by
  rw [orientationChanges]
  cases metadata.getInt Metadata.orientation <;> rfl

/-- **Rebuilding a block makes the changes that the image asks for.** -/
theorem rebuild_eq_foldl (metadata : Metadata) (header : Header) (exif : Exif) :
    rebuild metadata header exif =
      (changes metadata header exif.order).foldl Change.apply exif := by
  have htext : (updateText metadata exif).order = exif.order := by
    rw [updateText_eq, order_foldl_apply]
  have hheader := foldl_headerChanges metadata header (updateText metadata exif)
  rw [htext] at hheader
  have horder := order_foldl_apply (headerChanges metadata header exif.order)
    (updateText metadata exif)
  rw [hheader, htext] at horder
  rw [changes, List.foldl_append, List.foldl_append, ← updateText_eq, hheader, ← horder,
    foldl_orientationChanges]
  rfl

/-- What the header says is among the changes. -/
theorem mem_changes_of_header {metadata : Metadata} {header : Header} {order : ByteOrder}
    {c : Change} (h : c ∈ headerChanges metadata header order) : c ∈ changes metadata header order :=
  List.mem_append_right _ (List.mem_append_left _ h)

/-- So is the orientation. -/
theorem mem_changes_of_orientation {metadata : Metadata} (header : Header) {order : ByteOrder}
    {c : Change} (h : c ∈ orientationChanges metadata order) :
    c ∈ changes metadata header order :=
  List.mem_append_right _ (List.mem_append_right _ h)

/-! ### What they are about -/

/-- The text tags. -/
def textTargets : List (Section × UInt16) :=
  (tags.filter (·.isText)).map fun info => (info.home, info.tag)

/-- The tags that say what the header does. -/
def headerTargets : List (Section × UInt16) :=
  [(.main, xResolutionTag), (.main, yResolutionTag), (.main, resolutionUnitTag),
    (.exif, pixelXTag), (.exif, pixelYTag)]

/-- The tags that an image may write into its block. -/
def owned : List (Section × UInt16) := textTargets ++ (headerTargets ++ [(.main, orientationTag)])

/-- Whether an image may write a tag in the directory at a place. -/
def Owned (place : Place) (tag : UInt16) : Prop := ∃ s : Section, place = s.place ∧ (s, tag) ∈ owned

/-- No tag is written by two sources. -/
theorem nodup_owned : owned.Nodup := by decide

/-- A change of a text is about its tag. -/
theorem target_textChange (metadata : Metadata) (info : TagInfo) :
    (textChange metadata info).target = (info.home, info.tag) := by
  rw [textChange]
  cases metadata.getText info.field <;> rfl

/-- The texts are written to the text tags. -/
theorem target_textChanges (metadata : Metadata) :
    ((textChanges metadata).map Change.target).Sublist textTargets := by
  rw [textChanges]
  split
  · rw [List.map_map, textTargets]
    exact (List.map_congr_left fun info _ => target_textChange metadata info) ▸ List.Sublist.refl _
  · exact List.nil_sublist _

/-- The orientation is written to its own tag only. -/
theorem target_orientationChanges (metadata : Metadata) (order : ByteOrder) :
    ((orientationChanges metadata order).map Change.target).Sublist [(.main, orientationTag)] := by
  rw [orientationChanges]
  cases metadata.getInt Metadata.orientation with
  | some n => exact List.Sublist.refl _
  | none => exact List.nil_sublist _

/-- **An image writes to its own tags only.** -/
theorem target_changes (metadata : Metadata) (header : Header) (order : ByteOrder) :
    ((changes metadata header order).map Change.target).Sublist owned := by
  rw [changes, List.map_append, List.map_append]
  exact (target_textChanges metadata).append
    ((List.Sublist.refl headerTargets).append (target_orientationChanges metadata order))

/-- And to each of them once, so the order of the changes does not matter. -/
theorem nodup_target_changes (metadata : Metadata) (header : Header) (order : ByteOrder) :
    ((changes metadata header order).map Change.target).Nodup :=
  (target_changes metadata header order).nodup nodup_owned

/-- No text tag leads to a directory. -/
theorem isPointer_text : ∀ info ∈ tags.filter (·.isText), isPointer info.tag = false := by decide

/-- So texts are written over values. -/
theorem plain_textChanges {metadata : Metadata} : ∀ c ∈ textChanges metadata, c.Plain := by
  intro c hc
  rw [textChanges] at hc
  split at hc
  · obtain ⟨info, hinfo, rfl⟩ := List.mem_map.1 hc
    have hplain := isPointer_text info hinfo
    rw [textChange]
    cases metadata.getText info.field with
    | some value => exact wellFormed_textEntry hplain
    | none => exact hplain
  · cases hc

/-- Every change puts values, and drops no pointer. -/
theorem plain_changes {metadata : Metadata} {header : Header} {order : ByteOrder} :
    ∀ c ∈ changes metadata header order, c.Plain := by
  intro c hc
  rcases List.mem_append.1 hc with htext | hc
  · exact plain_textChanges c htext
  rcases List.mem_append.1 hc with hheader | horientation
  · simp only [headerChanges, List.mem_cons, List.not_mem_nil, or_false] at hheader
    rcases hheader with rfl | rfl | rfl | rfl | rfl
    · exact wellFormed_rationalEntry rfl
    · exact wellFormed_rationalEntry rfl
    · exact wellFormed_shortEntry rfl
    · exact wellFormed_longEntry rfl
    · exact wellFormed_longEntry rfl
  · rw [orientationChanges] at horientation
    split at horientation
    · obtain rfl := List.mem_singleton.1 horientation
      exact wellFormed_shortEntry rfl
    · cases horientation

/-! ### The rebuilt block -/

section Rebuild

variable {metadata : Metadata} {header : Header} {exif : Exif}

/-- A rebuilt block keeps its byte order. -/
theorem order_rebuild (metadata : Metadata) (header : Header) (exif : Exif) :
    (rebuild metadata header exif).order = exif.order := by
  rw [rebuild_eq_foldl, order_foldl_apply]

/-- And is as reading makes blocks. -/
theorem wellFormed_rebuild (metadata : Metadata) (header : Header) {levels : Nat}
    (hes : AllWellFormed levels exif.entries) :
    AllWellFormed levels (rebuild metadata header exif).entries := by
  rw [rebuild_eq_foldl]
  exact hes.foldl_apply plain_changes

/-- **To bring a block up to date again changes nothing.** -/
theorem rebuild_normalised (metadata : Metadata) (header : Header) (exif : Exif) :
    rebuild metadata header (rebuild metadata header exif).normalised =
      (rebuild metadata header exif).normalised := by
  have horder : (rebuild metadata header exif).normalised.order = exif.order :=
    order_rebuild metadata header exif
  rw [rebuild_eq_foldl, horder, rebuild_eq_foldl]
  exact foldl_apply_normalised plain_changes (nodup_target_changes metadata header exif.order) exif

/-- Under the tag of a change stands what the change makes of it, for no other change touches it. -/
theorem listing_rebuild_of_mem {c : Change} (hc : c ∈ changes metadata header exif.order) :
    listing c.target.1.place c.target.2 (rebuild metadata header exif).entries =
      (listing c.target.1.place c.target.2 exif.entries).map c.actListed := by
  rw [rebuild_eq_foldl]
  exact listing_foldl_of_mem plain_changes (nodup_target_changes metadata header exif.order) hc exif

/-- **What is not the image's to write stays.** -/
theorem listing_rebuild (metadata : Metadata) (header : Header) (exif : Exif) {place : Place}
    {tag : UInt16} (hfree : ¬Owned place tag) :
    listing place tag (rebuild metadata header exif).entries = listing place tag exif.entries := by
  rw [rebuild_eq_foldl]
  refine listing_foldl_of_ne plain_changes (fun c hc heq => hfree ⟨c.target.1, heq.1, ?_⟩) exif
  rw [heq.2]
  exact (target_changes metadata header exif.order).subset (List.mem_map_of_mem hc)

/-- The fields that a rebuilt block is made from. -/
def IsSource (name : String) : Prop :=
  isFieldName name = true ∨ name = Metadata.resolutionUnit ∨ name = Metadata.orientation

/-- The field of a tag is named as such. -/
theorem isFieldName_field (info : TagInfo) : isFieldName info.field = true := by
  rw [isFieldName, Text.startsWith, List.isPrefixOf_iff_prefix, TagInfo.field]
  simp only [String.toList_append, List.append_assoc]
  exact List.prefix_append ..

/-- Whether an image has fields of tags depends on these fields only. -/
theorem any_isFieldName_congr {metadata' : Metadata}
    (h : ∀ name, isFieldName name = true → metadata'.get? name = metadata.get? name) :
    metadata'.names.any isFieldName = metadata.names.any isFieldName := by
  rw [Bool.eq_iff_iff, Fields.any_names, Fields.any_names]
  refine exists_congr fun name => exists_congr fun value => and_congr_right fun hname => ?_
  rw [h name hname]

/-- **A block is rebuilt alike from metadata with the same sources.** -/
theorem rebuild_congr {metadata' : Metadata}
    (h : ∀ name, IsSource name → metadata'.get? name = metadata.get? name) (header : Header)
    (exif : Exif) : rebuild metadata' header exif = rebuild metadata header exif := by
  have hnames := any_isFieldName_congr fun name hname => h name (.inl hname)
  have htext : ∀ info, textChange metadata' info = textChange metadata info := by
    intro info
    rw [textChange, textChange, Metadata.getText, Metadata.getText,
      h info.field (.inl (isFieldName_field info))]
  have hunit := h Metadata.resolutionUnit (.inr (.inl rfl))
  have horientation := h Metadata.orientation (.inr (.inr rfl))
  have hchanges : changes metadata' header exif.order = changes metadata header exif.order := by
    simp only [changes, textChanges, headerChanges, orientationChanges, Metadata.getText,
      Metadata.getInt, hnames, funext htext, hunit, horientation]
  rw [rebuild_eq_foldl, rebuild_eq_foldl, hchanges]

/-- What is read at a tag whose listing starts with a value, or is empty. -/
theorem find?_of_listing {s : Section} {tag : UInt16} {first : Option Entry}
    (hvalue : ∀ e, first = some e → e.WellFormed 0)
    (h : (listing s.place tag exif.entries).bind List.head? = first) :
    (exif.directory? s).bind (find? tag) = first := by
  rw [← find?_directory?] at h
  cases hfirst : (exif.directory? s).bind (find? tag) with
  | none => rw [← h, hfirst, Option.map_none]
  | some e =>
    rw [hfirst, Option.map_some] at h
    cases e with
    | value => exact h
    | directory t kind es =>
      have hdirectory : (Entry.directory t kind []).WellFormed 0 := hvalue _ h.symm
      cases hdirectory

/-- What is read at a tag that was put. -/
theorem find?_rebuild_of_put {s : Section} {entry : Entry} (hentry : entry.WellFormed 0)
    (hc : Change.put s entry ∈ changes metadata header exif.order) :
    ((rebuild metadata header exif).normalised.directory? s).bind (find? entry.tag) =
      (exif.directory? s).map fun _ => entry := by
  refine find?_of_listing (fun e he => ?_) ?_
  · obtain ⟨_, -, rfl⟩ := Option.map_eq_some_iff.1 he
    exact hentry
  · have hlisting : listing s.place entry.tag (rebuild metadata header exif).entries =
        (listing s.place entry.tag exif.entries).map fun es => entry :: es.tail :=
      listing_rebuild_of_mem hc
    rw [listing_normalised, hlisting, listing, outlines, directory?_eq_below]
    cases below s.place exif.entries <;> rfl

/-- What is read at a tag that was replaced where it stood. -/
theorem find?_rebuild_of_replace {s : Section} {entry : Entry} (hentry : entry.WellFormed 0)
    (hc : Change.replace s entry ∈ changes metadata header exif.order) :
    ((rebuild metadata header exif).normalised.directory? s).bind (find? entry.tag) =
      ((exif.directory? s).bind (find? entry.tag)).map fun _ => entry := by
  refine find?_of_listing (fun e he => ?_) ?_
  · obtain ⟨_, -, rfl⟩ := Option.map_eq_some_iff.1 he
    exact hentry
  · have hlisting : listing s.place entry.tag (rebuild metadata header exif).entries =
        (listing s.place entry.tag exif.entries).map fun es => es.modifyHead fun _ => entry :=
      listing_rebuild_of_mem hc
    have hfirst : ((exif.directory? s).bind (find? entry.tag)).map (fun _ => entry) =
        ((listing s.place entry.tag exif.entries).bind List.head?).map fun _ => entry := by
      rw [← find?_directory?, Option.map_map]
      rfl
    rw [listing_normalised, hlisting, hfirst]
    cases listing s.place entry.tag exif.entries with
    | none => rfl
    | some es => exact List.head?_modifyHead

/-- The nearest orientation as a number: no wrap in between. -/
theorem toNat_nearestOrientation (n : Int64) :
    ((nearestOrientation n).toNat : Int) = max 1 (min 8 n.toInt) := by
  have hnat : ((max 1 (min 8 n.toInt)).toNat : Int) = max 1 (min 8 n.toInt) :=
    Int.toNat_of_nonneg (by omega)
  rw [nearestOrientation, UInt16.toNat_ofNat_of_lt' (by rw [UInt16.size]; omega), hnat]

/-- A short number is read as it was written. -/
theorem numberAt_shortEntry (order : ByteOrder) (tag n : UInt16) :
    numberAt order (shortEntry order tag n) 0 = some (Float.ofNat n.toNat) := by
  have hslice : (order.put16 n).slice? (0 * 2) 2 = some (order.put16 n) := by
    rw [Bytes.slice?_eq, order.length_put16, if_pos (by decide), Nat.zero_mul, List.drop_zero,
      List.take_of_length_le (Nat.le_of_eq (order.length_put16 n))]
  have hsize : typeSize 3 = 2 := rfl
  simp only [numberAt, shortEntry, Entry.kind, Entry.bytes, hsize, hslice, Option.bind_some,
    ByteOrder.get16_put16]
  rfl

/-- Orientations are small enough to be read back as they were written. -/
theorem toUInt16_ofNat_orientation :
    ∀ k < 9, (Float.ofNat k).toUInt16 = UInt16.ofNat k := by decide

/-- The orientation of a block that an image was oriented in. -/
theorem orientation_rebuild_of_some {n : Int64}
    (hn : metadata.getInt Metadata.orientation = some n) :
    (rebuild metadata header exif).normalised.orientation = some (nearestOrientation n) := by
  have hmem : Change.put .main (shortEntry exif.order orientationTag (nearestOrientation n)) ∈
      changes metadata header exif.order := by
    refine mem_changes_of_orientation header ?_
    rw [orientationChanges, hn]
    exact List.mem_singleton_self _
  have hfind : find? orientationTag (rebuild metadata header exif).normalised.entries =
      some (shortEntry exif.order orientationTag (nearestOrientation n)) :=
    find?_rebuild_of_put (wellFormed_shortEntry rfl) hmem
  have horder : (rebuild metadata header exif).normalised.order = exif.order :=
    order_rebuild metadata header exif
  have hsmall : (nearestOrientation n).toNat < 9 := by
    have := toNat_nearestOrientation n
    omega
  rw [orientation, mainNumber, hfind, Option.bind_some, horder, numberAt_shortEntry,
    Option.map_some, toUInt16_ofNat_orientation _ hsmall, UInt16.ofNat_toNat]

/-- An image without an orientation leaves that of the block alone. -/
theorem orientation_rebuild_of_none (hnone : metadata.getInt Metadata.orientation = none) :
    (rebuild metadata header exif).normalised.orientation = exif.orientation := by
  have hchanges : changes metadata header exif.order =
      textChanges metadata ++ headerChanges metadata header exif.order := by
    rw [changes, orientationChanges, hnone, List.append_nil]
  have hsublist : ((changes metadata header exif.order).map Change.target).Sublist
      (textTargets ++ headerTargets) := by
    rw [hchanges, List.map_append]
    exact (target_textChanges metadata).append (List.Sublist.refl headerTargets)
  have hlisting : listing [] orientationTag (rebuild metadata header exif).entries =
      listing [] orientationTag exif.entries := by
    rw [rebuild_eq_foldl]
    refine listing_foldl_of_ne plain_changes (fun c hc heq => ?_) exif
    have hmem : c.target ∈ textTargets ++ headerTargets :=
      hsublist.subset (List.mem_map_of_mem hc)
    have htarget : c.target = (.main, orientationTag) :=
      Prod.ext (Section.place_injective (heq.1.symm.trans rfl)) heq.2.symm
    rw [htarget] at hmem
    exact absurd hmem (by decide)
  have horder : (rebuild metadata header exif).normalised.order = exif.order :=
    order_rebuild metadata header exif
  rw [orientation, orientation, mainNumber_eq_listing, mainNumber_eq_listing, listing_normalised,
    hlisting, horder]

/-! ### Written and read again -/

/-- Whether a block can be written: the directories that may have been edited have counts of 16
bits, and the whole block offsets of 32. -/
structure Fits (exif : Exif) : Prop where
  counts : ∀ s es, exif.directory? s = some es → es.length ≤ 65535
  short : exif.toTiff.length < UInt32.size

/-- A block as reading makes it. -/
structure Readable (exif : Exif) : Prop where
  shape : AllWellFormed maxDepth exif.entries
  counts : ∀ place sub, below place exif.entries = some sub → sub.length ≤ 65535

/-- What was read is as reading makes it. -/
theorem readable_of_parse {blob : Bytes} (h : parse blob = .ok exif) : exif.Readable :=
  ⟨wellFormed_of_parse h, fun _ _ => length_le_of_parse h⟩

/-- So is a block without entries. -/
theorem readable_empty : empty.Readable := by
  refine ⟨fun e he => (nomatch he), fun place sub hsub => ?_⟩
  cases place with
  | nil =>
    obtain rfl := Option.some.inj hsub
    exact Nat.zero_le _
  | cons step place =>
    rw [below] at hsub
    split at hsub <;> cases hsub

/-- The counts of a changed block fit if those of the known directories do. -/
theorem countsFit_foldl {cs : List Change} (hplain : ∀ c ∈ cs, c.Plain) (hread : exif.Readable)
    (hcounts : ∀ s es, (cs.foldl Change.apply exif).directory? s = some es → es.length ≤ 65535) :
    (cs.foldl Change.apply exif).CountsFit := by
  refine countsFit_of_below (hread.shape.foldl_apply hplain) ?_
  intro place sub hsub
  by_cases hplace : ∃ s : Section, place = s.place
  · obtain ⟨s, rfl⟩ := hplace
    exact hcounts s sub ((directory?_eq_below _ s).trans hsub)
  · have houtlines := outlines_foldl_of_ne hplain (fun s heq => hplace ⟨s, heq⟩) exif
    rw [outlines, hsub, Option.map_some] at houtlines
    obtain ⟨before, hbefore, heq⟩ := Option.map_eq_some_iff.1 houtlines.symm
    have hlength := congrArg List.length heq
    rw [List.length_map, List.length_map] at hlength
    exact hlength ▸ hread.counts place before hbefore

/-- The counts of a rebuilt block fit if those of the known directories do. -/
theorem countsFit_rebuild (hread : exif.Readable)
    (hcounts : ∀ s es, (rebuild metadata header exif).directory? s = some es → es.length ≤ 65535) :
    (rebuild metadata header exif).CountsFit := by
  rw [rebuild_eq_foldl] at hcounts ⊢
  exact countsFit_foldl plain_changes hread hcounts

/-- **A block that was rebuilt and written is read as rebuilt,** in tag order. -/
theorem parse_rebuild (hread : exif.Readable) (hfits : (rebuild metadata header exif).Fits) :
    parse (rebuild metadata header exif).toBytes = .ok (rebuild metadata header exif).normalised :=
  parse_toBytes (wellFormed_rebuild metadata header hread.shape)
    (countsFit_rebuild hread hfits.counts) hfits.short

/-- And so is the block that an update starts from. -/
theorem readable_of_toRebuild (h : toRebuild metadata = .ok (some exif)) : exif.Readable := by
  rw [toRebuild] at h
  split at h
  · rename_i blob _
    cases hparse : parse blob with
    | error e =>
      rw [hparse] at h
      cases h
    | ok read =>
      rw [hparse] at h
      obtain rfl := Option.some.inj (Except.ok.inj h)
      exact readable_of_parse hparse
  · have hnew := Except.ok.inj h
    split at hnew
    · obtain rfl := Option.some.inj hnew
      exact readable_empty
    · cases hnew

/-- Which block to rebuild depends on the block and on whether there are tag fields. -/
theorem toRebuild_congr {metadata' : Metadata}
    (hblob : metadata'.get? Metadata.exif = metadata.get? Metadata.exif)
    (hnames : ∀ name, isFieldName name = true → metadata'.get? name = metadata.get? name) :
    toRebuild metadata' = toRebuild metadata := by
  rw [toRebuild, toRebuild, any_isFieldName_congr hnames, Metadata.getBlob, Metadata.getBlob, hblob]

/-- An update starts from the block of the image, if it can be read. -/
theorem toRebuild_of_blob {blob : Bytes} (hblob : metadata.getBlob Metadata.exif = some blob)
    (hparse : parse blob = .ok exif) : toRebuild metadata = .ok (some exif) := by
  rw [toRebuild, hblob]
  simp only [hparse]
  rfl

/-- Then it stores the rebuilt block and nothing else. -/
theorem update_of_toRebuild (header : Header) (h : toRebuild metadata = .ok (some exif)) :
    update metadata header =
      (metadata.insert Metadata.exif (.blob (rebuild metadata header exif).toBytes), []) := by
  rw [update, h]

/-- What becomes of a block depends on the block and on the fields that it is rebuilt from. -/
theorem update_exif_congr {metadata' : Metadata}
    (hblob : metadata'.get? Metadata.exif = metadata.get? Metadata.exif)
    (hsource : ∀ name, IsSource name → metadata'.get? name = metadata.get? name)
    (header : Header) :
    (update metadata' header).1.get? Metadata.exif
        = (update metadata header).1.get? Metadata.exif ∧
      (update metadata' header).2 = (update metadata header).2 := by
  have hrebuild := toRebuild_congr hblob fun name hname => hsource name (.inl hname)
  cases hcase : toRebuild metadata with
  | error e =>
    rw [update, update, hrebuild, hcase]
    exact ⟨hblob, rfl⟩
  | ok exif? =>
    cases exif? with
    | none =>
      rw [update, update, hrebuild, hcase]
      exact ⟨hblob, rfl⟩
    | some exif =>
      rw [update_of_toRebuild header (hrebuild.trans hcase), update_of_toRebuild header hcase,
        rebuild_congr hsource]
      refine ⟨?_, rfl⟩
      rw [Fields.get?_insert, Fields.get?_insert, if_pos rfl, if_pos rfl]

/-- A blob that was stored is found. -/
theorem getBlob_insert (metadata : Metadata) (name : String) (blob : Bytes) :
    Metadata.getBlob (metadata.insert name (.blob blob)) name = some blob := by
  rw [Metadata.getBlob, Fields.get?_insert, if_pos rfl]

/-- **Bringing the block of an image up to date changes only what is the image's to say.**  Every
other field stays. The new block has the byte order of the old one; its orientation is that of the
image, in `1..8`, where the image has one; its pixel dimensions are those of the header, where it
has any. In every directory, at any depth, what stands under a tag that is not the image's to write
stands there as before. -/
theorem update_frame {blob : Bytes} (hblob : metadata.getBlob Metadata.exif = some blob)
    (hparse : parse blob = .ok exif) (hfits : (rebuild metadata header exif).Fits) :
    (∀ name, name ≠ Metadata.exif →
      (update metadata header).1.get? name = metadata.get? name) ∧
    ∃ blob' exif', (update metadata header).1.getBlob Metadata.exif = some blob' ∧
      parse blob' = .ok exif' ∧
      exif'.order = exif.order ∧
      (∀ n, metadata.getInt Metadata.orientation = some n →
        ∃ k, exif'.orientation = some k ∧ (k.toNat : Int) = max 1 (min 8 n.toInt)) ∧
      (metadata.getInt Metadata.orientation = none → exif'.orientation = exif.orientation) ∧
      (exif'.directory? .exif).bind (find? pixelXTag) =
        ((exif.directory? .exif).bind (find? pixelXTag)).map
          (fun _ => longEntry exif.order pixelXTag header.width) ∧
      (exif'.directory? .exif).bind (find? pixelYTag) =
        ((exif.directory? .exif).bind (find? pixelYTag)).map
          (fun _ => longEntry exif.order pixelYTag header.height) ∧
      ∀ place tag, ¬Owned place tag →
        listing place tag exif'.entries = listing place tag exif.entries := by
  have hwidth : Change.replace .exif (longEntry exif.order pixelXTag header.width) ∈
      headerChanges metadata header exif.order := by simp [headerChanges]
  have hheight : Change.replace .exif (longEntry exif.order pixelYTag header.height) ∈
      headerChanges metadata header exif.order := by simp [headerChanges]
  rw [update_of_toRebuild header (toRebuild_of_blob hblob hparse)]
  refine ⟨fun name hname => ?_, (rebuild metadata header exif).toBytes,
    (rebuild metadata header exif).normalised, getBlob_insert .., ?_, ?_, ?_, ?_, ?_, ?_, ?_⟩
  · rw [Fields.get?_insert, if_neg hname]
  · exact parse_rebuild (readable_of_parse hparse) hfits
  · exact order_rebuild metadata header exif
  · exact fun n hn => ⟨_, orientation_rebuild_of_some hn, toNat_nearestOrientation n⟩
  · exact orientation_rebuild_of_none
  · exact find?_rebuild_of_replace (wellFormed_longEntry rfl) (mem_changes_of_header hwidth)
  · exact find?_rebuild_of_replace (wellFormed_longEntry rfl) (mem_changes_of_header hheight)
  · intro place tag hfree
    rw [listing_normalised, listing_rebuild metadata header exif hfree]

end Rebuild

/-- A block with a width and, behind it, a note that only the camera understands. -/
def annotated : Bytes :=
  [0x4D, 0x4D, 0, 42, 0, 0, 0, 8, 0, 2,
    0x87, 0x69, 0, 4, 0, 0, 0, 1, 0, 0, 0, 38,
    0x01, 0x12, 0, 3, 0, 0, 0, 1, 0, 6, 0, 0, 0, 0, 0, 0, 0, 2,
    0xA0, 0x02, 0, 4, 0, 0, 0, 1, 0, 0, 2, 128,
    0x92, 0x7C, 0, 7, 0, 0, 0, 6, 0, 0, 0, 68, 0, 0, 0, 0,
    1, 2, 3, 4, 5, 6]

/-- The note. -/
def cameraNote : Entry := .value 0x927C 7 6 [1, 2, 3, 4, 5, 6]

/-- The block as it is read. -/
def annotatedBlock : Exif := ⟨.big, [
  .directory 0x8769 4 [.value 0xA002 4 1 [0, 0, 2, 128], cameraNote], .value 0x0112 3 1 [0, 6]]⟩

/-- The fields of an image with that block: an orientation out of range, an XMP packet, and a
profile that is none. -/
def annotatedMetadata : Metadata :=
  (((Fields.empty.insert Metadata.orientation (.int 12)).insert Metadata.exif
    (.blob annotated)).insert Metadata.xmp (.text "<x/>")).insert Metadata.icc (.blob [1, 2, 3])

/-- The header of that image after a crop. -/
def annotatedHeader : Header :=
  { width := 2, height := 1, bands := 1, format := .ushort, interpretation := .bw }

/-- The bytes are read as that block. -/
theorem parse_annotated : parse annotated = .ok annotatedBlock := by
  have hunmarked : unmarked annotated = annotated := by decide
  have horder : orderOf annotated = some .big := by decide
  simp only [parse, hunmarked, horder]
  rfl

/-- What an update makes of it: the width of the crop, the nearest orientation, the resolution, and
the note as it was. -/
theorem rebuild_annotated :
    rebuild annotatedMetadata annotatedHeader annotatedBlock = ⟨.big, [
      .directory 0x8769 4 [.value 0xA002 4 1 [0, 0, 0, 2], cameraNote], .value 0x0112 3 1 [0, 8],
      rationalEntry .big 0x011A (annotatedHeader.xres.toFloat * 25.4),
      rationalEntry .big 0x011B (annotatedHeader.yres.toFloat * 25.4),
      .value 0x0128 3 1 [0, 2]]⟩ := by
  rfl

/-- The block is short. -/
theorem length_toTiff_annotated :
    (rebuild annotatedMetadata annotatedHeader annotatedBlock).toTiff.length < 200 := by
  refine Nat.lt_of_le_of_lt (length_toTiff_le _) ?_
  rw [rebuild_annotated]
  simp [Entry.spaceAll, Entry.space, rationalEntry, cameraNote, ByteOrder.length_put32]

/-- So it can be written. -/
theorem fits_annotated : (rebuild annotatedMetadata annotatedHeader annotatedBlock).Fits := by
  refine ⟨fun s es hes => ?_, Nat.lt_trans length_toTiff_annotated (by decide)⟩
  rw [rebuild_annotated] at hes
  cases s with
  | main => obtain rfl := Option.some.inj hes; decide
  | exif => obtain rfl := Option.some.inj hes; decide
  | gps => cases hes
  | interop => cases hes

/-- The orientation and the width of the image are in the new block, and so is the note. -/
theorem update_frame_annotated :
    annotatedMetadata.getBlob Metadata.exif = some annotated ∧
      parse annotated = .ok annotatedBlock ∧
      (rebuild annotatedMetadata annotatedHeader annotatedBlock).Fits ∧
      ∃ blob exif, (update annotatedMetadata annotatedHeader).1.getBlob Metadata.exif = some blob ∧
        parse blob = .ok exif ∧ exif.orientation = some 8 ∧
        (exif.directory? .exif).bind (find? pixelXTag) = some (longEntry .big pixelXTag 2) ∧
        listing [(exifPointer, 0)] 0x927C exif.entries = some [cameraNote] := by
  have hblob : annotatedMetadata.getBlob Metadata.exif = some annotated := by rfl
  obtain ⟨-, blob, exif, hnew, hread, -, horientation, -, hwidth, -, hlisting⟩ :=
    update_frame hblob parse_annotated fits_annotated
  have hnote : ¬Owned [(exifPointer, 0)] 0x927C := by
    rintro ⟨s, -, hs⟩
    revert hs
    cases s <;> decide
  obtain ⟨k, hk, hclamped⟩ := horientation 12 rfl
  have hk8 : k = 8 := UInt16.toNat_inj.1 (Int.ofNat.inj hclamped)
  refine ⟨hblob, parse_annotated, fits_annotated, blob, exif, hnew, hread, hk8 ▸ hk, hwidth, ?_⟩
  rw [hlisting _ _ hnote]
  rfl

end Exif

end Raster
