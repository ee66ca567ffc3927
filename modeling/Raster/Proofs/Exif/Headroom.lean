/-
# Room for more entries

The count of a directory has 16 bits, and revising a block may add entries to it:

| directory | tags that may be added |
| --- | --- |
| main | seven texts, the orientation, the resolutions and their unit |
| Exif | three texts |
| GPS | two texts |
| interoperability | one text |

How many entries a directory has and how many of these tags it lacks, taken together, is a number
that no revision makes larger (`HasHeadroom.apply`). So counts fit for good exactly where it fits 16
bits at the start (`countsFit_revisions_iff`). A directory without that room is written with a
count that says less than there is, and what it does not say is lost.
-/
import Mathlib.Data.Finset.SDiff
import Mathlib.Data.Finset.Card
import Raster.Proofs.Exif.Update

namespace Raster

namespace Exif

/-! ### The tags of a directory -/

/-- The tags in a directory. -/
def tagsOf (es : List Entry) : Finset UInt16 := (es.map Entry.tag).toFinset

/-- A tag is in a directory where an entry has it. -/
theorem mem_tagsOf {tag : UInt16} {es : List Entry} : tag ∈ tagsOf es ↔ ∃ e ∈ es, e.tag = tag := by
  rw [tagsOf, List.mem_toFinset, List.mem_map]

/-- What may be added to a block, by directory. -/
def added : List (Section × UInt16) :=
  textTargets ++ [(.main, orientationTag), (.main, xResolutionTag), (.main, yResolutionTag),
    (.main, resolutionUnitTag)]

/-- Nothing is counted twice in what may be added. -/
theorem nodup_added : added.Nodup := by decide

/-- The tags that may be added to a known directory. -/
def addable (s : Section) : Finset UInt16 :=
  ((added.filter fun target => target.1 = s).map Prod.snd).toFinset

/-- What may be added, seen from a directory. -/
theorem mem_addable {s : Section} {tag : UInt16} : tag ∈ addable s ↔ (s, tag) ∈ added := by
  simp [addable]

/-- How many entries a known directory has once everything is added that may be. -/
def filled (s : Section) (es : List Entry) : Nat := es.length + (addable s \ tagsOf es).card

/-- Whether the counts of a block, of 16 bits each, have room for everything that may be added. -/
def HasHeadroom (exif : Exif) : Prop := ∀ s es, exif.directory? s = some es → filled s es ≤ 65535

/-- How full a directory can get depends on its tags only. -/
theorem filled_congr {es es' : List Entry} (h : es.map Entry.tag = es'.map Entry.tag)
    (s : Section) : filled s es = filled s es' := by
  have hlength := congrArg List.length h
  rw [List.length_map, List.length_map] at hlength
  rw [filled, filled, tagsOf, tagsOf, h, hlength]

/-- A directory that has everything already gets no fuller. -/
theorem filled_of_subset {s : Section} {es : List Entry} (h : addable s ⊆ tagsOf es) :
    filled s es = es.length := by
  rw [filled, Finset.sdiff_eq_empty_iff_subset.2 h, Finset.card_empty, Nat.add_zero]

/-- An entry of a new tag is added at the end. -/
theorem put_of_notMem {entry : Entry} {es : List Entry} (h : entry.tag ∉ tagsOf es) :
    put entry es = es ++ [entry] := by
  induction es with
  | nil => rfl
  | cons e rest ih =>
    have hne : e.tag ≠ entry.tag := fun heq => h (mem_tagsOf.2 ⟨e, List.mem_cons_self, heq⟩)
    have hrest : entry.tag ∉ tagsOf rest := fun hin => by
      obtain ⟨e', he', heq⟩ := mem_tagsOf.1 hin
      exact h (mem_tagsOf.2 ⟨e', List.mem_cons_of_mem _ he', heq⟩)
    rw [put, if_neg hne, ih hrest, List.cons_append]

/-- The tags are those under which an entry is found. -/
theorem mem_tagsOf_iff_find? {tag : UInt16} {es : List Entry} :
    tag ∈ tagsOf es ↔ (find? tag es).isSome := by
  rw [mem_tagsOf, find?, List.find?_isSome]
  exact exists_congr fun e => and_congr_right fun _ => beq_iff_eq.symm

/-- An entry that takes the place of another changes no tags. -/
theorem tags_put_of_mem {entry : Entry} {es : List Entry} (h : entry.tag ∈ tagsOf es) :
    (put entry es).map Entry.tag = es.map Entry.tag := by
  rw [put_eq_modifyTag (mem_tagsOf_iff_find?.1 h)]
  exact map_modifyTag (fun e he => he.symm) es

/-- Entries side by side have the tags of both. -/
theorem tagsOf_append (es es' : List Entry) : tagsOf (es ++ es') = tagsOf es ∪ tagsOf es' := by
  rw [tagsOf, List.map_append, List.toFinset_append]
  rfl

/-- **What may be added takes the place that was left for it.** -/
theorem filled_put {s : Section} {entry : Entry} (hentry : entry.tag ∈ addable s)
    (es : List Entry) : filled s (put entry es) = filled s es := by
  by_cases h : entry.tag ∈ tagsOf es
  · exact filled_congr (tags_put_of_mem h) s
  -- One entry more, and one tag less that is lacking.
  · have hlacks : entry.tag ∈ addable s \ tagsOf es := Finset.mem_sdiff.2 ⟨hentry, h⟩
    have hpos := Finset.card_pos.2 ⟨_, hlacks⟩
    have htags : tagsOf (es ++ [entry]) = insert entry.tag (tagsOf es) := by
      rw [tagsOf_append, Finset.union_comm]
      rfl
    rw [put_of_notMem h, filled, filled, htags, List.length_append, Finset.sdiff_insert,
      Finset.card_erase_of_mem hlacks, List.length_singleton]
    omega

/-- Replacing an entry that is there adds nothing. -/
theorem filled_putIfThere (s : Section) (entry : Entry) (es : List Entry) :
    filled s (putIfThere entry es) = filled s es := by
  rw [putIfThere]
  split
  · rename_i h
    exact filled_congr (tags_put_of_mem (mem_tagsOf_iff_find?.2 h)) s
  · rfl

/-- A tag that is dropped leaves at least the place that it may need again. -/
theorem filled_drop_le (s : Section) (tag : UInt16) (es : List Entry) :
    filled s (drop tag es) ≤ filled s es := by
  by_cases h : tag ∈ tagsOf es
  -- The tag may be lacking now, but at least one entry is gone.
  · obtain ⟨e, he, htag⟩ := mem_tagsOf.1 h
    have hless : (drop tag es).length < es.length :=
      List.length_filter_lt_length_iff_exists.2 ⟨e, he, by simp [htag]⟩
    have hsubset : addable s \ tagsOf (drop tag es) ⊆ insert tag (addable s \ tagsOf es) := by
      intro other hother
      obtain ⟨hother, hgone⟩ := Finset.mem_sdiff.1 hother
      by_cases heq : other = tag
      · exact Finset.mem_insert.2 (.inl heq)
      · refine Finset.mem_insert_of_mem (Finset.mem_sdiff.2 ⟨hother, fun hin => hgone ?_⟩)
        obtain ⟨e', he', htag'⟩ := mem_tagsOf.1 hin
        exact mem_tagsOf.2 ⟨e', List.mem_filter.2 ⟨he', by simp [htag', heq]⟩, htag'⟩
    have hcard := (Finset.card_le_card hsubset).trans (Finset.card_insert_le _ _)
    rw [filled, filled]
    omega
  · have hsame : drop tag es = es := List.filter_eq_self.2 fun e he =>
      bne_iff_ne.2 fun heq => h (mem_tagsOf.2 ⟨e, he, heq⟩)
    rw [hsame]

/-! ### Changes -/

namespace Change

variable {c : Change}

/-- Whether a change adds nothing but what may be added. -/
def Permitted : Change → Prop
  | put home entry => entry.tag ∈ addable home
  | replace _ _ => True
  | drop _ _ => True

/-- A change whose tag may be added is permitted, whatever it does. -/
theorem Permitted.of_target (h : c.target ∈ added) : c.Permitted := by
  cases c with
  | put home entry => exact mem_addable.2 h
  | replace home entry => trivial
  | drop home tag => trivial

/-- **A permitted change uses up room that was counted,** so no directory can get fuller than
before. -/
theorem filled_act_le (h : c.Permitted) (es : List Entry) :
    filled c.target.1 (c.act es) ≤ filled c.target.1 es := by
  cases c with
  | put home entry => exact Nat.le_of_eq (filled_put h es)
  | replace home entry => exact Nat.le_of_eq (filled_putIfThere home entry es)
  | drop home tag => exact filled_drop_le home tag es

/-- A known directory after a change. -/
theorem Plain.filled_apply (h : c.Plain) (exif : Exif) (s : Section) :
    ((c.apply exif).directory? s).map (filled s) =
      (exif.directory? s).map fun es => filled s (if s = c.target.1 then c.act es else es) := by
  rw [directory?_eq_below, directory?_eq_below]
  by_cases hs : s = c.target.1
  · subst hs
    rw [apply, edit_eq, Section.place, below_editedAt, Option.map_map]
    simp only [if_true, Function.comp_def]
  · have houtlines := h.outlines_apply_ne exif fun heq => hs (Section.place_injective heq)
    have houtline : ∀ es : List Entry, filled s (es.map Entry.outline) = filled s es := fun es =>
      filled_congr (by rw [List.map_map]; exact List.map_congr_left fun e _ => e.tag_outline) s
    have hfilled := congrArg (Option.map (filled s)) houtlines
    rw [outlines, outlines, Option.map_map, Option.map_map] at hfilled
    simpa only [Function.comp_def, houtline, if_neg hs] using hfilled

end Change

/-- **A permitted change keeps room.** -/
theorem HasHeadroom.apply {exif : Exif} (h : exif.HasHeadroom) {c : Change} (hplain : c.Plain)
    (hpermitted : c.Permitted) : (c.apply exif).HasHeadroom := by
  intro s es hes
  have hfilled := hplain.filled_apply exif s
  rw [hes, Option.map_some] at hfilled
  obtain ⟨before, hbefore, heq⟩ := Option.map_eq_some_iff.1 hfilled.symm
  rw [← heq]
  split
  · rename_i hs
    exact (hs ▸ Change.filled_act_le hpermitted before).trans (h s before hbefore)
  · exact h s before hbefore

/-- Nor can permitted changes together exceed the room. -/
theorem HasHeadroom.foldl_apply {cs : List Change} (hplain : ∀ c ∈ cs, c.Plain)
    (hpermitted : ∀ c ∈ cs, c.Permitted) {exif : Exif} (h : exif.HasHeadroom) :
    (cs.foldl Change.apply exif).HasHeadroom := by
  induction cs generalizing exif with
  | nil => exact h
  | cons c cs ih =>
    rw [List.forall_mem_cons] at hplain hpermitted
    exact ih hplain.2 hpermitted.2 (h.apply hplain.1 hpermitted.1)

/-! ### Revisions -/

/-- What an edit changes in a block of a byte order. -/
def Edit.changes (order : ByteOrder) : Edit → List Change
  | orientation value => [.put .main (shortEntry order orientationTag value)]
  | resolution xres yres unit =>
    [.put .main (rationalEntry order xResolutionTag (xres * unit.millimetres)),
      .put .main (rationalEntry order yResolutionTag (yres * unit.millimetres)),
      .put .main (shortEntry order resolutionUnitTag unit.code)]
  | dimensions width height =>
    [.replace .exif (longEntry order pixelXTag width),
      .replace .exif (longEntry order pixelYTag height)]

/-- An edit is its changes one after another. -/
theorem Edit.apply_eq_foldl (exif : Exif) (edit : Edit) :
    edit.apply exif = (edit.changes exif.order).foldl Change.apply exif := by
  cases edit with
  | orientation value => rfl
  | resolution xres yres unit => rfl
  | dimensions width height =>
    rw [apply, setDimensions, ← edit_edit]
    rfl

/-- A revision of a block: an edit, or the texts of an image written into it. -/
inductive Revision where
  | edit (e : Edit)
  | texts (metadata : Metadata)

namespace Revision

/-- The block after a revision. -/
def apply (exif : Exif) : Revision → Exif
  | edit e => e.apply exif
  | texts metadata => updateText metadata exif

/-- What a revision changes in a block of a byte order. -/
def changes (order : ByteOrder) : Revision → List Change
  | edit e => e.changes order
  | texts metadata => textChanges metadata

/-- So is a revision. -/
theorem apply_eq_foldl (exif : Exif) (revision : Revision) :
    revision.apply exif = (revision.changes exif.order).foldl Change.apply exif := by
  cases revision with
  | edit e => exact e.apply_eq_foldl exif
  | texts metadata => exact updateText_eq metadata exif

/-- Revisions one after the other are one list of changes. -/
theorem foldl_apply_eq (revisions : List Revision) (exif : Exif) :
    revisions.foldl apply exif =
      (revisions.flatMap (changes exif.order)).foldl Change.apply exif := by
  induction revisions generalizing exif with
  | nil => rfl
  | cons revision revisions ih =>
    have horder : (revision.apply exif).order = exif.order := by
      rw [apply_eq_foldl, order_foldl_apply]
    rw [List.foldl_cons, ih, horder, List.flatMap_cons, List.foldl_append, apply_eq_foldl]

/-- Revisions write values over values. -/
theorem plain_changes {order : ByteOrder} (revision : Revision) :
    ∀ c ∈ revision.changes order, c.Plain := by
  cases revision with
  | texts metadata => exact plain_textChanges
  | edit e =>
    cases e with
    | orientation value => exact List.forall_mem_singleton.2 (wellFormed_shortEntry rfl)
    | resolution xres yres unit =>
      simp only [changes, Edit.changes, List.forall_mem_cons]
      exact ⟨wellFormed_rationalEntry rfl, wellFormed_rationalEntry rfl, wellFormed_shortEntry rfl,
        List.forall_mem_nil _⟩
    | dimensions width height =>
      simp only [changes, Edit.changes, List.forall_mem_cons]
      exact ⟨wellFormed_longEntry rfl, wellFormed_longEntry rfl, List.forall_mem_nil _⟩

/-- And what they add may be added. -/
theorem permitted_changes {order : ByteOrder} (revision : Revision) :
    ∀ c ∈ revision.changes order, c.Permitted := by
  cases revision with
  | texts metadata =>
    intro c hc
    have htarget := (target_textChanges metadata).subset (List.mem_map_of_mem hc)
    exact .of_target (List.mem_append_left _ htarget)
  | edit e =>
    cases e with
    | orientation value =>
      exact List.forall_mem_singleton.2
        (.of_target (show (Section.main, orientationTag) ∈ added by decide))
    | resolution xres yres unit =>
      simp only [changes, Edit.changes, List.forall_mem_cons]
      exact ⟨.of_target (show (Section.main, xResolutionTag) ∈ added by decide),
        .of_target (show (Section.main, yResolutionTag) ∈ added by decide),
        .of_target (show (Section.main, resolutionUnitTag) ∈ added by decide),
        List.forall_mem_nil _⟩
    | dimensions width height =>
      simp only [changes, Edit.changes, List.forall_mem_cons]
      exact ⟨trivial, trivial, List.forall_mem_nil _⟩

variable (order : ByteOrder) (revisions : List Revision)

/-- The same for a course of revisions. -/
theorem plain_flatMap : ∀ c ∈ revisions.flatMap (changes order), c.Plain := by
  intro c hc
  obtain ⟨revision, -, hc⟩ := List.mem_flatMap.1 hc
  exact revision.plain_changes c hc

/-- And what they add may be added. -/
theorem permitted_flatMap : ∀ c ∈ revisions.flatMap (changes order), c.Permitted := by
  intro c hc
  obtain ⟨revision, -, hc⟩ := List.mem_flatMap.1 hc
  exact revision.permitted_changes c hc

end Revision

/-! ### A revision that fills a block -/

/-- The fields of an image with every text. -/
def everyText : Metadata :=
  (tags.filter (·.isText)).foldl (fun m info => m.insert info.field (.text "")) Fields.empty

/-- The image has a text for every text tag. -/
theorem getText_everyText :
    ∀ info ∈ tags.filter (·.isText), everyText.getText info.field = some "" := by decide +kernel

/-- Revisions that add everything that may be added. -/
def everything : List Revision :=
  [.texts everyText, .edit (.orientation 1), .edit (.resolution 1.0 1.0 .inch)]

/-- So each of these tags is put. -/
theorem textChanges_everyText : textChanges everyText =
    (tags.filter (·.isText)).map fun info => .put info.home (textEntry info.tag "") := by
  have hany : everyText.names.any isFieldName = true := by decide +kernel
  rw [textChanges, if_pos hany]
  refine List.map_congr_left fun info hinfo => ?_
  rw [textChange, getText_everyText info hinfo]
  rfl

variable (order : ByteOrder)

/-- Each tag that may be added is put once. -/
theorem target_everything :
    (everything.flatMap (Revision.changes order)).map Change.target = added := by
  simp only [everything, List.flatMap_cons, List.flatMap_nil, Revision.changes,
    textChanges_everyText]
  rfl

/-- And nothing is dropped or only replaced. -/
theorem exists_put_of_mem_everything :
    ∀ c ∈ everything.flatMap (Revision.changes order), ∃ home entry, c = .put home entry := by
  simp only [everything, List.flatMap_cons, List.flatMap_nil, Revision.changes,
    textChanges_everyText, Edit.changes, List.append_nil, List.forall_mem_append,
    List.forall_mem_map, List.forall_mem_cons]
  exact ⟨fun info _ => ⟨_, _, rfl⟩, ⟨⟨_, _, rfl⟩, List.forall_mem_nil _⟩, ⟨_, _, rfl⟩, ⟨_, _, rfl⟩,
    ⟨_, _, rfl⟩, List.forall_mem_nil _⟩

/-- Where everything is put that may be added, a directory is filled up with it. -/
theorem filled_foldl_of_puts {cs : List Change} (hplain : ∀ c ∈ cs, c.Plain)
    (hpermitted : ∀ c ∈ cs, c.Permitted) (hputs : ∀ c ∈ cs, ∃ home entry, c = .put home entry)
    (exif : Exif) (s : Section) :
    ((cs.foldl Change.apply exif).directory? s).map (filled s) =
      (exif.directory? s).map (filled s) := by
  induction cs generalizing exif with
  | nil => rfl
  | cons c cs ih =>
    rw [List.forall_mem_cons] at hplain hpermitted hputs
    rw [List.foldl_cons, ih hplain.2 hpermitted.2 hputs.2, hplain.1.filled_apply]
    obtain ⟨home, entry, rfl⟩ := hputs.1
    refine congrArg (Option.map · _) (funext fun es => ?_)
    split
    · rename_i hs
      exact hs ▸ filled_put hpermitted.1 es
    · rfl

/-- Whatever is put stands in its directory afterwards. -/
theorem addable_subset_of_puts {cs : List Change} (hplain : ∀ c ∈ cs, c.Plain)
    (htargets : cs.map Change.target = added) (hputs : ∀ c ∈ cs, ∃ home entry, c = .put home entry)
    {exif : Exif} {s : Section} {es : List Entry}
    (hes : (cs.foldl Change.apply exif).directory? s = some es) : addable s ⊆ tagsOf es := by
  intro tag htag
  obtain ⟨c, hc, htarget⟩ := List.mem_map.1 (htargets ▸ mem_addable.1 htag)
  obtain ⟨home, entry, rfl⟩ := hputs c hc
  obtain ⟨rfl, rfl⟩ := Prod.mk.inj htarget
  have hlisting : listing home.place entry.tag (cs.foldl Change.apply exif).entries =
      (listing home.place entry.tag exif.entries).map fun es => entry :: es.tail :=
    listing_foldl_of_mem hplain (htargets ▸ nodup_added) hc exif
  rw [directory?_eq_below] at hes
  rw [listing, outlines, hes] at hlisting
  obtain ⟨before, -, heq⟩ := Option.map_eq_some_iff.1 hlisting.symm
  have hmem : entry ∈ withTag entry.tag (es.map Entry.outline) := heq ▸ List.mem_cons_self
  obtain ⟨e, he, rfl⟩ := List.mem_map.1 (mem_withTag.1 hmem).1
  exact mem_tagsOf.2 ⟨e, he, e.tag_outline.symm⟩

/-- **A block whose counts fit when everything was added had room for it.** -/
theorem hasHeadroom_of_everything {exif : Exif}
    (h : (everything.foldl Revision.apply exif).CountsFit) : exif.HasHeadroom := by
  rw [Revision.foldl_apply_eq] at h
  have hplain := Revision.plain_flatMap exif.order everything
  have hpermitted := Revision.permitted_flatMap exif.order everything
  have hputs := exists_put_of_mem_everything exif.order
  intro s es hes
  -- What is counted of the directory stays the same, and nothing lacks in the end.
  have hfilled := filled_foldl_of_puts hplain hpermitted hputs exif s
  rw [hes, Option.map_some] at hfilled
  obtain ⟨es', hes', heq⟩ := Option.map_eq_some_iff.1 hfilled
  rw [← heq, filled_of_subset (addable_subset_of_puts hplain (target_everything _) hputs hes')]
  exact h.length_le ((directory?_eq_below _ s).symm.trans hes')

/-! ### Counts -/

section Parse

variable {blob : Bytes} {exif : Exif}

/-- No known directory lacks more than the eleven tags that may be added to the main one. -/
theorem filled_le_length_add (s : Section) (es : List Entry) : filled s es ≤ es.length + 11 := by
  have hcard : (addable s).card ≤ 11 := by cases s <;> decide
  have hless := Finset.card_le_card (Finset.sdiff_subset (s := addable s) (t := tagsOf es))
  rw [filled]
  omega

/-- A block has room where no known directory is nearly full. -/
theorem HasHeadroom.of_length
    (h : ∀ s es, exif.directory? s = some es → es.length ≤ 65524) : exif.HasHeadroom :=
  fun s es hes => (filled_le_length_add s es).trans (Nat.add_le_add_right (h s es hes) 11)

/-- **Where counts have room, they fit after every revision.** -/
theorem HasHeadroom.countsFit (h : exif.HasHeadroom) (hread : exif.Readable)
    (revisions : List Revision) : (revisions.foldl Revision.apply exif).CountsFit := by
  rw [Revision.foldl_apply_eq]
  have hplain := Revision.plain_flatMap exif.order revisions
  have hroom := h.foldl_apply hplain (Revision.permitted_flatMap exif.order revisions)
  exact countsFit_foldl hplain hread fun s es hes => (Nat.le_add_right ..).trans (hroom s es hes)

/-- What is read of a block that was revised and written. -/
theorem parse_revisions (hparse : parse blob = .ok exif) (revisions : List Revision)
    (hshort : (revisions.foldl Revision.apply exif).toTiff.length < UInt32.size) :
    parse (revisions.foldl Revision.apply exif).toBytes =
      .ok (revisions.foldl Revision.apply exif).normalised.cut := by
  have hplain := Revision.plain_flatMap exif.order revisions
  have hshape := (wellFormed_of_parse hparse).foldl_apply hplain
  rw [← Revision.foldl_apply_eq] at hshape
  exact parse_toBytes_cut hshape hshort

/-- **Counts of a block that was read fit after every course of revisions exactly where they have
room for all that may be added.**  And where one does not fit after a course, writing loses
entries: as long as offsets fit, the block is read back as it was, in tag order, exactly where its
counts fit. -/
theorem countsFit_revisions_iff (hparse : parse blob = .ok exif) :
    ((∀ revisions : List Revision, (revisions.foldl Revision.apply exif).CountsFit) ↔
      exif.HasHeadroom) ∧
    ∀ revisions : List Revision,
      (revisions.foldl Revision.apply exif).toTiff.length < UInt32.size →
        (parse (revisions.foldl Revision.apply exif).toBytes =
            .ok (revisions.foldl Revision.apply exif).normalised ↔
          (revisions.foldl Revision.apply exif).CountsFit) := by
  refine ⟨⟨fun hall => hasHeadroom_of_everything (hall everything),
    fun hroom => hroom.countsFit (readable_of_parse hparse)⟩, fun revisions hshort => ?_⟩
  rw [parse_revisions hparse revisions hshort, ← countsFit_normalised_iff, ← cut_eq_self_iff,
    Except.ok.injEq]

end Parse

/-- A small block has room, and is read back as it was turned. -/
theorem countsFit_revisions_iff_annotated :
    parse annotated = .ok annotatedBlock ∧ annotatedBlock.HasHeadroom ∧
      (annotatedBlock.setOrientation 1).toTiff.length < UInt32.size ∧
      (∀ revisions : List Revision, (revisions.foldl Revision.apply annotatedBlock).CountsFit) ∧
      parse (annotatedBlock.setOrientation 1).toBytes =
        .ok (annotatedBlock.setOrientation 1).normalised := by
  obtain ⟨hiff, hread⟩ := countsFit_revisions_iff parse_annotated
  have hroom : annotatedBlock.HasHeadroom := .of_length fun s es hes => by
    cases s with
    | main => obtain rfl := Option.some.inj hes; decide
    | exif => obtain rfl := Option.some.inj hes; decide
    | gps => cases hes
    | interop => cases hes
  have hshort : (annotatedBlock.setOrientation 1).toTiff.length < UInt32.size :=
    short_of_space (by decide)
  have hfit := hiff.2 hroom
  exact ⟨parse_annotated, hroom, hshort, hfit,
    (hread [.edit (.orientation 1)] hshort).2 (hfit [.edit (.orientation 1)])⟩

/-- A block of entries that say nothing. -/
def blank (n : Nat) : Exif := ⟨.big, List.replicate n (.value 0 0 0 [])⟩

section Blank

variable {n : Nat}

/-- All of its entries are the same. -/
theorem mem_blank {e : Entry} (h : e ∈ (blank n).entries) : e = .value 0 0 0 [] :=
  List.eq_of_mem_replicate h

/-- Each takes its record and one byte at most. -/
theorem space_blank (n : Nat) : Entry.spaceAll (blank n).entries = n * 13 := by
  rw [blank]
  induction n with
  | zero => rfl
  | succ n ih =>
    rw [List.replicate_succ, Entry.spaceAll, ih, Entry.space, List.length_nil]
    omega

/-- As many as a count can say are read back. -/
theorem parse_blank (hn : n ≤ 65535) : parse (blank n).toBytes = .ok (blank n) := by
  have hwf : AllWellFormed maxDepth (blank n).entries := fun e he => by
    rw [mem_blank he]
    exact .value rfl fun _ => rfl
  have hcounts : (blank n).CountsFit := by
    refine .directory 0 0 ?_ fun e he => ?_
    · rwa [blank, List.length_replicate]
    · rw [mem_blank he]
      exact .value ..
  have hshort : (blank n).toTiff.length < UInt32.size := by
    refine short_of_space ?_
    rw [space_blank, UInt32.size]
    omega
  have hsorted : (blank n).normalised = blank n := by
    refine congrArg (Exif.mk .big) ((entries_normalised (blank n)).trans ?_)
    rw [blank, List.map_replicate, Entry.sorted_value]
    exact Entry.sortByTag_of_pairwise (List.pairwise_replicate.2 (.inr (UInt16.le_refl _)))
  rw [parse_toBytes hwf hcounts hshort, hsorted]

/-- An orientation is one more entry. -/
theorem entries_setOrientation_blank (n : Nat) (value : UInt16) :
    ((blank n).setOrientation value).entries =
      (blank n).entries ++ [shortEntry .big orientationTag value] := by
  refine put_of_notMem fun h => ?_
  obtain ⟨e, he, htag⟩ := mem_tagsOf.1 h
  rw [mem_blank he] at htag
  exact absurd htag (by decide : (0 : UInt16) ≠ orientationTag)

/-- So the block has one entry more, which need not be countable. -/
theorem length_setOrientation_blank (n : Nat) (value : UInt16) :
    ((blank n).setOrientation value).entries.length = n + 1 := by
  rw [entries_setOrientation_blank, List.length_append, blank, List.length_replicate,
    List.length_singleton]

/-- Its bytes are few, so that only the count can fail. -/
theorem short_setOrientation_blank (hn : n ≤ 65535) (value : UInt16) :
    ((blank n).setOrientation value).toTiff.length < UInt32.size := by
  refine short_of_space ?_
  rw [entries_setOrientation_blank, Entry.spaceAll_append, space_blank, UInt32.size]
  simp only [shortEntry, Entry.spaceAll, Entry.space, ByteOrder.length_put16]
  omega

end Blank

/-- **Where a count overflows:** a block of as many entries as its count can say is given an
orientation that it did not have. It has one entry more then, the count that is written is zero,
and nothing is read any more. -/
theorem countsFit_revisions_crowded :
    parse (blank 65535).toBytes = .ok (blank 65535) ∧
      ((blank 65535).setOrientation 1).entries.length = 65536 ∧
      ¬((blank 65535).setOrientation 1).CountsFit ∧
      ∃ again, parse ((blank 65535).setOrientation 1).toBytes = .ok again ∧
        again.entries = [] := by
  have hparse := parse_blank (Nat.le_refl 65535)
  have hlength := length_setOrientation_blank 65535 1
  refine ⟨hparse, hlength, fun hfits => ?_, _, parse_revisions hparse [.edit (.orientation 1)]
    (short_setOrientation_blank (Nat.le_refl 65535) 1), ?_⟩
  · have hmain : below [] ((blank 65535).setOrientation 1).entries =
        some ((blank 65535).setOrientation 1).entries := rfl
    have hle := hfits.length_le hmain
    rw [hlength] at hle
    exact absurd hle (by decide)
  · have hcount : ((blank 65535).setOrientation 1).normalised.entries.length = 65536 := by
      rw [entries_normalised, Entry.length_sortByTag, List.length_map, hlength]
    show Entry.cutTable ((blank 65535).setOrientation 1).normalised.entries = []
    rw [Entry.cutTable, hcount]
    exact List.take_zero

end Exif

end Raster
