/-
# Directories by place

A place is the way from the main directory to another one: which pointers to
follow and, where a tag repeats, which of its entries. So every directory of a
block has a place, at any depth, and not only the four with known fields
(`Section.place`).

`listing place tag` is what stands under a tag in the directory at a place: its
entries in their order, each with its type, count and bytes, and for one that
leads to a directory that it does. Two blocks with the same listings at every
place have the same directories, up to how the tags of one directory stand among
each other; putting a block in tag order changes no listing
(`listing_normalised`).

An edit of a known directory changes what stands in that directory
(`below_editedAt`) and nothing in any other (`outlines_editedAt`). So of a block
that was read and edited only the known directories can have more entries than
their count says (`countsFit_of_below`, `length_le_of_parse`).
-/
import Raster.Proofs.Exif.RoundTrip

namespace Raster

namespace Exif

/-- The entries of a tag, in their order. -/
def withTag (tag : UInt16) (es : List Entry) : List Entry := es.filter fun e => e.tag == tag

/-- What an entry says itself: a directory without what stands in it. -/
def Entry.outline : Entry → Entry
  | value tag kind count bytes => value tag kind count bytes
  | directory tag kind _ => directory tag kind []

/-- The way to a directory: the tag of each pointer, and how many of its entries to pass by. -/
abbrev Place := List (UInt16 × Nat)

/-- The way to a known directory. -/
def Section.place (s : Section) : Place := s.path.map fun tag => (tag, 0)

/-- The directory at a place. -/
def below : Place → List Entry → Option (List Entry)
  | [], es => some es
  | (tag, i) :: place, es =>
    if isPointer tag then ((withTag tag es)[i]?.bind Entry.entries?).bind (below place) else none

/-- What stands in the directory at a place, without what stands below it. -/
def outlines (place : Place) (es : List Entry) : Option (List Entry) :=
  (below place es).map fun es => es.map Entry.outline

/-- What stands under a tag in the directory at a place. -/
def listing (place : Place) (tag : UInt16) (es : List Entry) : Option (List Entry) :=
  (outlines place es).map (withTag tag)

/-! ### Entries of a tag -/

/-- An entry of the tag in front is listed first. -/
theorem withTag_cons_self {tag : UInt16} {e : Entry} (h : e.tag = tag) (es : List Entry) :
    withTag tag (e :: es) = e :: withTag tag es :=
  List.filter_cons_of_pos (beq_iff_eq.2 h)

/-- One of another tag is not listed. -/
theorem withTag_cons_ne {tag : UInt16} {e : Entry} (h : e.tag ≠ tag) (es : List Entry) :
    withTag tag (e :: es) = withTag tag es :=
  List.filter_cons_of_neg fun heq => h (beq_iff_eq.1 heq)

/-- The entries of a tag are entries that have it. -/
theorem mem_withTag {tag : UInt16} {e : Entry} {es : List Entry} :
    e ∈ withTag tag es ↔ e ∈ es ∧ e.tag = tag := by
  rw [withTag, List.mem_filter, beq_iff_eq]

/-- The first of them is the one that is looked up. -/
theorem head?_withTag (tag : UInt16) (es : List Entry) : (withTag tag es).head? = find? tag es :=
  List.head?_filter

/-- What leaves the tags alone can be done before or after picking one. -/
theorem withTag_map {f : Entry → Entry} (hf : ∀ e, (f e).tag = e.tag) (tag : UInt16)
    (es : List Entry) : withTag tag (es.map f) = (withTag tag es).map f := by
  simp only [withTag, List.filter_map, Function.comp_def, hf]

/-- An outline keeps the tag. -/
@[simp] theorem Entry.tag_outline (e : Entry) : e.outline.tag = e.tag := by cases e <;> rfl

/-- So does putting an entry in order. -/
@[simp] theorem Entry.tag_sorted (e : Entry) : e.sorted.tag = e.tag := by
  cases e with
  | value tag kind count bytes => rw [Entry.sorted_value]
  | directory tag kind es => rw [Entry.sorted_directory]; rfl

/-- Order is a matter of what stands below an entry, which its outline leaves out. -/
@[simp] theorem Entry.outline_sorted (e : Entry) : e.sorted.outline = e.outline := by
  cases e with
  | value tag kind count bytes => rw [Entry.sorted_value]
  | directory tag kind es => rw [Entry.sorted_directory]; rfl

/-- Only a value has the outline of a value. -/
theorem Entry.outline_eq_value {e : Entry} {tag kind : UInt16} {count : UInt32} {bytes : Bytes} :
    e.outline = .value tag kind count bytes ↔ e = .value tag kind count bytes := by
  cases e with
  | value => exact Iff.rfl
  | directory => exact ⟨(nomatch ·), (nomatch ·)⟩

/-- Numbers are read from values, which are their own outlines. -/
theorem numberAt_outline (order : ByteOrder) (e : Entry) (index : Nat) :
    numberAt order e.outline index = numberAt order e index := by cases e <;> rfl

/-! ### Known directories -/

/-- The tags on the way to a known directory are pointers. -/
theorem isPointer_of_mem_path {s : Section} : ∀ tag ∈ s.path, isPointer tag = true := by
  have hall : s.path.all isPointer = true := by cases s <;> decide
  exact List.all_eq_true.1 hall

/-- Following pointers by name goes by the first entry of each. -/
theorem follow_eq_below :
    ∀ {path : List UInt16}, (∀ tag ∈ path, isPointer tag = true) → ∀ es : List Entry,
      follow path es = below (path.map fun tag => (tag, 0)) es
  | [], _, _ => rfl
  | tag :: path, hpath, es => by
    rw [List.forall_mem_cons] at hpath
    rw [follow, List.map_cons, below, if_pos hpath.1, Option.bind_assoc, ← head?_withTag,
      List.head?_eq_getElem?]
    exact congrArg _ (funext fun e => congrArg _ (funext (follow_eq_below hpath.2)))

/-- A known directory is the one at its place. -/
theorem directory?_eq_below (exif : Exif) (s : Section) :
    exif.directory? s = below s.place exif.entries :=
  follow_eq_below isPointer_of_mem_path exif.entries

/-- What is read at a known tag is the first of its listing. -/
theorem find?_directory? (exif : Exif) (s : Section) (tag : UInt16) :
    ((exif.directory? s).bind (find? tag)).map Entry.outline =
      (listing s.place tag exif.entries).bind List.head? := by
  rw [directory?_eq_below, listing, outlines]
  cases below s.place exif.entries with
  | none => rfl
  | some es =>
    rw [Option.map_some, Option.map_some, Option.bind_some, Option.bind_some,
      withTag_map Entry.tag_outline, List.head?_map, head?_withTag]

/-- A number of the main directory is read from the listing of its tag. -/
theorem mainNumber_eq_listing (exif : Exif) (tag : UInt16) :
    exif.mainNumber tag =
      ((listing [] tag exif.entries).bind List.head?).bind (numberAt exif.order · 0) := by
  have hfirst := find?_directory? exif .main tag
  rw [show Section.main.place = [] from rfl] at hfirst
  rw [← hfirst, Option.bind_map, mainNumber]
  simp only [Function.comp_def, numberAt_outline]
  rfl

/-! ### Tag order -/

/-- Sorting by tags leaves the order inside a tag. -/
theorem withTag_sorted (tag : UInt16) (es : List Entry) :
    withTag tag (Entry.sortByTag (es.map Entry.sorted)) = (withTag tag es).map Entry.sorted :=
  (Entry.filter_sortByTag tag _).trans (withTag_map Entry.tag_sorted tag es)

/-- What stands below an entry in order is in order. -/
theorem Entry.entries?_sorted (e : Entry) :
    e.sorted.entries? = e.entries?.map fun es => Entry.sortByTag (es.map Entry.sorted) := by
  cases e with
  | value tag kind count bytes => rw [Entry.sorted_value]; rfl
  | directory tag kind es => rw [Entry.sorted_directory]; rfl

/-- The directories of a block in tag order stand where they stood, each one in tag order. -/
theorem below_sorted :
    ∀ (place : Place) (es : List Entry),
      below place (Entry.sortByTag (es.map Entry.sorted)) =
        (below place es).map fun es => Entry.sortByTag (es.map Entry.sorted)
  | [], _ => rfl
  | (tag, i) :: place, es => by
    rw [below, below]
    split
    · rw [withTag_sorted, List.getElem?_map]
      cases (withTag tag es)[i]? with
      | none => rfl
      | some e =>
        rw [Option.map_some, Option.bind_some, Option.bind_some, Entry.entries?_sorted]
        cases e.entries? with
        | none => rfl
        | some sub => exact below_sorted place sub
    · rfl

/-- **Tag order changes no listing.** -/
theorem listing_normalised (exif : Exif) (place : Place) (tag : UInt16) :
    listing place tag exif.normalised.entries = listing place tag exif.entries := by
  rw [entries_normalised, listing, outlines, below_sorted, listing, outlines]
  cases below place exif.entries with
  | none => rfl
  | some es =>
    simp only [Option.map_some]
    rw [withTag_map Entry.tag_outline, withTag_map Entry.tag_outline, withTag_sorted, List.map_map]
    exact congrArg some (List.map_congr_left fun e _ => e.outline_sorted)

/-! ### How many entries there are -/

/-- A table that was read has no more entries than its count can say. -/
theorem length_le_of_readDirectory {order : ByteOrder} {data : Bytes} {levels offset : Nat}
    {es : List Entry} (h : readDirectory order data levels offset = some es) :
    es.length ≤ 65535 := by
  cases levels with
  | zero => cases h
  | succ levels =>
    obtain ⟨table, htable, rfl⟩ := Option.map_eq_some_iff.1 h
    exact Nat.le_trans (List.length_filterMap_le _ table) (length_of_tableAt htable).1

/-- What holds of a directory, and passes from every directory to those that its entries hold, holds
at every place. -/
theorem below_induction {P : List Entry → Prop} {sub : List Entry}
    (hstep : ∀ es, P es → ∀ e ∈ es, ∀ inner, e.entries? = some inner → P inner) :
    ∀ {place : Place} {es : List Entry}, P es → below place es = some sub → P sub
  | [], _, h, hsub => Option.some.inj hsub ▸ h
  | (tag, i) :: place, es, h, hsub => by
    rw [below] at hsub
    split at hsub
    · obtain ⟨inner, hinner, hsub⟩ := Option.bind_eq_some_iff.1 hsub
      obtain ⟨e, he, hinner⟩ := Option.bind_eq_some_iff.1 hinner
      have hmem := (mem_withTag.1 (List.mem_of_getElem? he)).1
      exact below_induction hstep (hstep es h e hmem inner hinner) hsub
    · cases hsub

/-- Every directory below one that was read was read too. -/
theorem readDirectory_of_below {order : ByteOrder} {data : Bytes} {place : Place}
    {levels offset : Nat} {es sub : List Entry}
    (h : readDirectory order data levels offset = some es) (hsub : below place es = some sub) :
    ∃ levels offset, readDirectory order data levels offset = some sub := by
  refine below_induction (P := fun es => ∃ levels offset,
    readDirectory order data levels offset = some es) ?_ ⟨levels, offset, h⟩ hsub
  rintro es ⟨levels, offset, h⟩ e he inner hinner
  cases levels with
  | zero => cases h
  | succ levels =>
    obtain ⟨table, -, rfl⟩ := Option.map_eq_some_iff.1 h
    obtain ⟨raw, -, hentry⟩ := List.mem_filterMap.1 he
    simp only [readEntry] at hentry
    split at hentry
    · obtain ⟨sub, hread, rfl⟩ := Option.map_eq_some_iff.1 hentry
      exact ⟨levels, _, hread.trans hinner⟩
    · split at hentry
      · obtain rfl := Option.some.inj hentry
        cases hinner
      · obtain ⟨_, -, rfl⟩ := Option.map_eq_some_iff.1 hentry
        cases hinner

/-- A directory of a block that was read has no more entries than its count can say. -/
theorem length_le_of_parse {blob : Bytes} {exif : Exif} (h : parse blob = .ok exif) {place : Place}
    {sub : List Entry} (hsub : below place exif.entries = some sub) : sub.length ≤ 65535 := by
  obtain ⟨_, _, hread⟩ := readDirectory_of_below (readDirectory_of_parse h) hsub
  exact length_le_of_readDirectory hread

/-- The directories below well-formed entries have well-formed entries. -/
theorem AllWellFormed.of_below {place : Place} {levels : Nat} {es sub : List Entry}
    (hes : AllWellFormed levels es) (h : below place es = some sub) :
    ∃ levels, AllWellFormed levels sub := by
  refine below_induction (P := fun es => ∃ levels, AllWellFormed levels es) ?_ ⟨levels, hes⟩ h
  rintro es ⟨levels, hes⟩ e he inner hinner
  have hwf := hes e he
  cases hwf with
  | value => cases hinner
  | directory _ each =>
    obtain rfl := Option.some.inj hinner
    exact ⟨_, each⟩

/-- Where counts fit, that of the directory at every place does. -/
theorem CountsFit.length_le {exif : Exif} (h : exif.CountsFit) {place : Place} {sub : List Entry}
    (hsub : below place exif.entries = some sub) : sub.length ≤ 65535 := by
  have hfits := below_induction (P := fun es => ∃ tag kind,
    Entry.CountsFit (.directory tag kind es)) ?_ ⟨0, 0, h⟩ hsub
  · obtain ⟨tag, kind, hfits⟩ := hfits
    cases hfits with
    | directory _ _ fits _ => exact fits
  · rintro es ⟨tag, kind, hes⟩ e he inner hinner
    cases hes with
    | directory _ _ _ each =>
      have hentry := each e he
      cases hentry with
      | value => cases hinner
      | directory t k fits each =>
        obtain rfl := Option.some.inj hinner
        exact ⟨t, k, .directory t k fits each⟩

/-- **Counts fit if that of the directory at every place does.** -/
theorem countsFit_of_below {tag kind : UInt16} :
    ∀ {levels : Nat} {es : List Entry}, AllWellFormed levels es →
      (∀ place sub, below place es = some sub → sub.length ≤ 65535) →
        Entry.CountsFit (.directory tag kind es) := by
  intro levels
  induction levels generalizing tag kind with
  | zero =>
    intro es hes hcounts
    refine .directory tag kind (hcounts [] es rfl) fun e he => ?_
    cases hes e he with
    | value => exact .value ..
  | succ levels ih =>
    intro es hes hcounts
    refine .directory tag kind (hcounts [] es rfl) fun e he => ?_
    cases hes e he with
    | value => exact .value ..
    | @directory _ t k inner pointer each =>
      -- The places of the directory that `e` holds are those behind `e`.
      obtain ⟨i, hi⟩ := List.getElem?_of_mem (mem_withTag.2 ⟨he, rfl⟩)
      refine ih each fun place sub hsub => hcounts ((t, i) :: place) sub ?_
      rw [below, if_pos pointer]
      rw [Entry.tag] at hi
      rw [hi, Option.bind_some, Entry.entries?, Option.bind_some, hsub]

/-! ### Edits of a directory -/

/-- Changes the first entry of a tag. -/
def modifyTag (tag : UInt16) (f : Entry → Entry) : List Entry → List Entry
  | [] => []
  | e :: rest => if e.tag = tag then f e :: rest else e :: modifyTag tag f rest

/-- An entry with the directory that it holds edited. -/
def Entry.mapEntries (f : List Entry → List Entry) : Entry → Entry
  | value tag kind count bytes => value tag kind count bytes
  | directory tag kind entries => directory tag kind (f entries)

/-- Work below an entry leaves its tag. -/
@[simp] theorem Entry.tag_mapEntries (f : List Entry → List Entry) (e : Entry) :
    (e.mapEntries f).tag = e.tag := by cases e <;> rfl

/-- And its outline. -/
@[simp] theorem Entry.outline_mapEntries (f : List Entry → List Entry) (e : Entry) :
    (e.mapEntries f).outline = e.outline := by cases e <;> rfl

/-- And is done on what stands there, if anything can. -/
@[simp] theorem Entry.entries?_mapEntries (f : List Entry → List Entry) (e : Entry) :
    (e.mapEntries f).entries? = e.entries?.map f := by cases e <;> rfl

/-- Modifying a tag modifies the first of its entries. -/
theorem withTag_modifyTag {tag : UInt16} {f : Entry → Entry} (hf : ∀ e, e.tag = tag → (f e).tag = tag)
    (es : List Entry) : withTag tag (modifyTag tag f es) = (withTag tag es).modifyHead f := by
  induction es with
  | nil => rfl
  | cons e rest ih =>
    rw [modifyTag]
    by_cases h : e.tag = tag
    · rw [if_pos h, withTag_cons_self h, withTag_cons_self (hf e h), List.modifyHead_cons]
    · rw [if_neg h, withTag_cons_ne h, withTag_cons_ne h, ih]

/-- And leaves other tags alone. -/
theorem withTag_modifyTag_ne {tag other : UInt16} {f : Entry → Entry}
    (hf : ∀ e, e.tag = tag → (f e).tag = tag) (hne : other ≠ tag) (es : List Entry) :
    withTag other (modifyTag tag f es) = withTag other es := by
  induction es with
  | nil => rfl
  | cons e rest ih =>
    rw [modifyTag]
    by_cases h : e.tag = tag
    · have hold : e.tag ≠ other := fun heq => hne (heq.symm.trans h)
      have hnew : (f e).tag ≠ other := fun heq => hne (heq.symm.trans (hf e h))
      rw [if_pos h, withTag_cons_ne hold, withTag_cons_ne hnew]
    · rw [if_neg h]
      by_cases hother : e.tag = other
      · rw [withTag_cons_self hother, withTag_cons_self hother, ih]
      · rw [withTag_cons_ne hother, withTag_cons_ne hother, ih]

/-- What an edit of the first entry of a tag leaves of every entry stays. -/
theorem map_modifyTag {α : Type} {g : Entry → α} {tag : UInt16} {f : Entry → Entry}
    (hf : ∀ e, e.tag = tag → g (f e) = g e) (es : List Entry) :
    (modifyTag tag f es).map g = es.map g := by
  induction es with
  | nil => rfl
  | cons e rest ih =>
    rw [modifyTag]
    split
    · rename_i htag
      rw [List.map_cons, List.map_cons, hf e htag]
    · rw [List.map_cons, List.map_cons, ih]

/-- The entries with the directory at the end of a path of pointers edited, where there is one. -/
def editedAt (f : List Entry → List Entry) : List UInt16 → List Entry → List Entry
  | [], es => f es
  | tag :: path, es => modifyTag tag (Entry.mapEntries (editedAt f path)) es

/-- An edit below a pointer that fails where it finds nothing is, if failing means to change
nothing, one that modifies what is there. -/
theorem getD_editBelow {g : List Entry → Option (List Entry)} {f : List Entry → List Entry}
    (hg : ∀ es, (g es).getD es = f es) (tag : UInt16) (es : List Entry) :
    (editBelow tag g es).getD es = modifyTag tag (Entry.mapEntries f) es := by
  induction es with
  | nil => rfl
  | cons e rest ih =>
    unfold editBelow
    rw [modifyTag]
    split
    · cases e with
      | value tag kind count bytes => rfl
      | directory tag kind sub =>
        rw [Entry.mapEntries, ← hg]
        dsimp only
        cases g sub <;> rfl
    · rw [← ih]
      cases editBelow tag g rest <;> rfl

/-- The same along a whole path. -/
theorem getD_editAt (f : List Entry → List Entry) :
    ∀ (path : List UInt16) (es : List Entry), (editAt f path es).getD es = editedAt f path es
  | [], _ => rfl
  | tag :: path, es => getD_editBelow (getD_editAt f path) tag es

/-- So an edit of a known directory cannot fail: it is `editedAt`. -/
theorem edit_eq (exif : Exif) (s : Section) (f : List Entry → List Entry) :
    exif.edit s f = { exif with entries := editedAt f s.path exif.entries } := by
  rw [edit, ← getD_editAt]
  cases editAt f s.path exif.entries <;> rfl

/-- Modifying a tag twice is modifying it once. -/
theorem modifyTag_modifyTag {tag : UInt16} {f g : Entry → Entry}
    (hf : ∀ e, e.tag = tag → (f e).tag = tag) (es : List Entry) :
    modifyTag tag g (modifyTag tag f es) = modifyTag tag (fun e => g (f e)) es := by
  induction es with
  | nil => rfl
  | cons e rest ih =>
    by_cases h : e.tag = tag
    · rw [modifyTag, if_pos h, modifyTag, if_pos (hf e h), modifyTag, if_pos h]
    · rw [modifyTag, if_neg h, modifyTag, if_neg h, modifyTag, if_neg h, ih]

/-- Two edits of one directory are one edit. -/
theorem editedAt_editedAt (f g : List Entry → List Entry) :
    ∀ (path : List UInt16) (es : List Entry),
      editedAt g path (editedAt f path es) = editedAt (fun es => g (f es)) path es
  | [], _ => rfl
  | tag :: path, es => by
    rw [editedAt, editedAt, editedAt, modifyTag_modifyTag fun e h => (Entry.tag_mapEntries _ e).trans h]
    congr 1
    funext e
    cases e with
    | value => rfl
    | directory tag kind sub => exact congrArg _ (editedAt_editedAt f g path sub)

/-- Two edits of one directory are one. -/
theorem edit_edit (exif : Exif) (s : Section) (f g : List Entry → List Entry) :
    (exif.edit s f).edit s g = exif.edit s fun es => g (f es) := by
  rw [edit_eq, edit_eq, edit_eq, editedAt_editedAt]

/-- The entry that a place goes through after an edit below the first one of a tag. -/
theorem getElem?_modifyTag (f : List Entry → List Entry) (tag : UInt16) (es : List Entry) :
    ∀ i : Nat, (withTag tag (modifyTag tag (Entry.mapEntries f) es))[i]? =
      if i = 0 then (withTag tag es)[0]?.map (Entry.mapEntries f) else (withTag tag es)[i]? := by
  intro i
  rw [withTag_modifyTag fun e h => (Entry.tag_mapEntries f e).trans h]
  cases withTag tag es <;> cases i <;> rfl

/-- **The edited directory.** -/
theorem below_editedAt (f : List Entry → List Entry) :
    ∀ {path : List UInt16} (es : List Entry),
      below (path.map fun tag => (tag, 0)) (editedAt f path es) =
        (below (path.map fun tag => (tag, 0)) es).map f
  | [], _ => rfl
  | tag :: path, es => by
    rw [List.map_cons, editedAt, below, below]
    split
    · rw [getElem?_modifyTag, if_pos rfl]
      cases (withTag tag es)[0]? with
      | none => rfl
      | some e =>
        rw [Option.map_some, Option.bind_some, Option.bind_some, Entry.entries?_mapEntries]
        cases e.entries? with
        | none => rfl
        | some sub => exact below_editedAt f sub
    · rfl

/-- **Every other directory keeps its entries,** as long as the edit leaves pointers alone. -/
theorem outlines_editedAt {f : List Entry → List Entry}
    (hf : ∀ tag, isPointer tag = true → ∀ es, withTag tag (f es) = withTag tag es) :
    ∀ {path : List UInt16} {place : Place}, place ≠ path.map (fun tag => (tag, 0)) →
      ∀ es : List Entry, outlines place (editedAt f path es) = outlines place es
  | [], [], hne, _ => absurd rfl hne
  -- The place leads below the edited directory, through a pointer that is still there.
  | [], (tag, i) :: place, _, es => by
    rw [editedAt, outlines, outlines, below, below]
    split
    · rename_i hpointer
      rw [hf tag hpointer]
    · rfl
  -- The edited directory lies below the place, which shows only that it is there.
  | pointer :: path, [], _, es => by
    rw [editedAt, outlines, outlines, below, below, Option.map_some, Option.map_some,
      map_modifyTag fun e _ => Entry.outline_mapEntries _ e]
  -- Both go on: by the same pointer, or by ways that part here.
  | pointer :: path, (tag, i) :: place, hne, es => by
    rw [editedAt, outlines, outlines, below, below]
    by_cases htag : tag = pointer
    · subst htag
      rw [getElem?_modifyTag]
      by_cases hi : i = 0
      · subst hi
        have hplace : place ≠ path.map fun tag => (tag, 0) := by
          rintro rfl
          exact hne rfl
        rw [if_pos rfl]
        split
        · cases (withTag tag es)[0]? with
          | none => rfl
          | some e =>
            rw [Option.map_some, Option.bind_some, Option.bind_some, Entry.entries?_mapEntries]
            cases e.entries? with
            | none => rfl
            | some sub => exact outlines_editedAt hf hplace sub
        · rfl
      · rw [if_neg hi]
    · rw [withTag_modifyTag_ne (fun e h => (Entry.tag_mapEntries _ e).trans h) htag]

end Exif

end Raster
