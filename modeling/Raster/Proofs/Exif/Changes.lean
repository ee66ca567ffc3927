/-
# Changes of single tags

Bringing a block up to date is a list of changes, each of one tag in one known
directory:

| change | the entries of its tag afterwards |
| --- | --- |
| `put` | the new one in place of the first one, or alone |
| `replace` | the new one in place of the first one, if there is one |
| `drop` | none |

A change turns the listing of its own tag into the one in the table
(`Change.listing_apply`) and leaves every other listing alone
(`Change.listing_apply_ne`). Where no two changes of a list have one target, each
of them is done once when the list is (`listing_foldl_of_mem`), so that doing the
list once more changes nothing (`foldl_apply_normalised`).
-/
import Raster.Proofs.Exif.Places

namespace Raster

namespace Exif

/-- A change of the entries of one tag in a known directory. -/
inductive Change where
  | put (home : Section) (entry : Entry)
  | replace (home : Section) (entry : Entry)
  | drop (home : Section) (tag : UInt16)

namespace Change

/-- The directory and the tag of a change. -/
def target : Change → Section × UInt16
  | put home entry => (home, entry.tag)
  | replace home entry => (home, entry.tag)
  | drop home tag => (home, tag)

/-- What a change does to its directory. -/
def act : Change → List Entry → List Entry
  | put _ entry => Exif.put entry
  | replace _ entry => putIfThere entry
  | drop _ tag => Exif.drop tag

/-- What a change does to the entries of its tag. -/
def actListed : Change → List Entry → List Entry
  | put _ entry, es => entry :: es.tail
  | replace _ entry, es => es.modifyHead fun _ => entry
  | drop _ _, _ => []

/-- The block after a change. -/
def apply (exif : Exif) (c : Change) : Exif := exif.edit c.target.1 c.act

/-- What is put is a value, and what is dropped are values. -/
def Plain : Change → Prop
  | put _ entry => entry.WellFormed 0
  | replace _ entry => entry.WellFormed 0
  | drop _ tag => isPointer tag = false

end Change

/-! ### One directory -/

/-- Without a level of directories an entry is a value, which is its own outline. -/
theorem Entry.WellFormed.plain {e : Entry} (h : e.WellFormed 0) :
    isPointer e.tag = false ∧ e.outline = e := by
  cases h with
  | value plain _ => exact ⟨plain, rfl⟩

/-- And a value may stand at any depth. -/
theorem Entry.WellFormed.value_mono {e : Entry} (h : e.WellFormed 0) (levels : Nat) :
    e.WellFormed levels := by
  cases h with
  | value plain full => exact .value plain full

/-- Putting an entry replaces the first one of its tag, if there is one. -/
theorem withTag_put (entry : Entry) (es : List Entry) :
    withTag entry.tag (put entry es) = entry :: (withTag entry.tag es).tail := by
  induction es with
  | nil => exact withTag_cons_self rfl []
  | cons e rest ih =>
    rw [put]
    by_cases h : e.tag = entry.tag
    · rw [if_pos h, withTag_cons_self rfl, withTag_cons_self h, List.tail_cons]
    · rw [if_neg h, withTag_cons_ne h, withTag_cons_ne h, ih]

/-- The entries of other tags stay. -/
theorem withTag_put_ne {entry : Entry} {tag : UInt16} (hne : tag ≠ entry.tag) (es : List Entry) :
    withTag tag (put entry es) = withTag tag es := by
  induction es with
  | nil => exact withTag_cons_ne hne.symm []
  | cons e rest ih =>
    rw [put]
    by_cases h : e.tag = entry.tag
    · have hold : e.tag ≠ tag := fun heq => hne (heq.symm.trans h)
      rw [if_pos h, withTag_cons_ne hne.symm, withTag_cons_ne hold]
    · rw [if_neg h]
      by_cases htag : e.tag = tag
      · rw [withTag_cons_self htag, withTag_cons_self htag, ih]
      · rw [withTag_cons_ne htag, withTag_cons_ne htag, ih]

/-- The first entry of a tag is the one found. -/
theorem find?_cons_self {tag : UInt16} {e : Entry} (h : e.tag = tag) (es : List Entry) :
    find? tag (e :: es) = some e :=
  List.find?_cons_of_pos (beq_iff_eq.2 h)

/-- Entries of other tags are passed by. -/
theorem find?_cons_ne {tag : UInt16} {e : Entry} (h : e.tag ≠ tag) (es : List Entry) :
    find? tag (e :: es) = find? tag es :=
  List.find?_cons_of_neg fun heq => h (beq_iff_eq.1 heq)

/-- Where there is an entry of the tag, putting one changes the first. -/
theorem put_eq_modifyTag {entry : Entry} {es : List Entry} (h : (find? entry.tag es).isSome) :
    put entry es = modifyTag entry.tag (fun _ => entry) es := by
  induction es with
  | nil => cases h
  | cons e rest ih =>
    rw [put, modifyTag]
    by_cases htag : e.tag = entry.tag
    · rw [if_pos htag, if_pos htag]
    · rw [find?_cons_ne htag] at h
      rw [if_neg htag, if_neg htag, ih h]

/-- An edit that the first entry of its tag needs no more changes nothing. -/
theorem modifyTag_eq_self {tag : UInt16} {f : Entry → Entry} {es : List Entry}
    (h : ∀ e, find? tag es = some e → f e = e) : modifyTag tag f es = es := by
  induction es with
  | nil => rfl
  | cons e rest ih =>
    rw [modifyTag]
    by_cases htag : e.tag = tag
    · rw [if_pos htag, h e (find?_cons_self htag rest)]
    · rw [find?_cons_ne htag] at h
      rw [if_neg htag, ih h]

/-- To replace an entry only where there is one is to modify the first of its tag. -/
theorem putIfThere_eq_modifyTag (entry : Entry) (es : List Entry) :
    putIfThere entry es = modifyTag entry.tag (fun _ => entry) es := by
  rw [putIfThere]
  by_cases h : (find? entry.tag es).isSome
  · rw [if_pos h, put_eq_modifyTag h]
  · rw [if_neg h, modifyTag_eq_self fun e he => absurd (Option.isSome_of_eq_some he) h]

/-- A dropped tag has no entry. -/
theorem withTag_drop (tag : UInt16) (es : List Entry) : withTag tag (drop tag es) = [] := by
  rw [withTag, drop, List.filter_filter, List.filter_eq_nil_iff]
  simp

/-- The other tags keep theirs. -/
theorem withTag_drop_ne {tag other : UInt16} (hne : other ≠ tag) (es : List Entry) :
    withTag other (drop tag es) = withTag other es := by
  rw [withTag, drop, List.filter_filter, withTag]
  refine List.filter_congr fun e _ => ?_
  by_cases h : e.tag = other
  · simp [h, hne]
  · simp [h]

namespace Change

variable {c : Change}

/-- A plain change is about a tag that leads to no directory. -/
theorem Plain.isPointer (h : c.Plain) : isPointer c.target.2 = false := by
  cases c with
  | put home entry => exact (Entry.WellFormed.plain h).1
  | replace home entry => exact (Entry.WellFormed.plain h).1
  | drop home tag => exact h

/-- **What a change does to its own tag.** -/
theorem Plain.listed (h : c.Plain) (es : List Entry) :
    withTag c.target.2 ((c.act es).map Entry.outline) =
      c.actListed (withTag c.target.2 (es.map Entry.outline)) := by
  rw [withTag_map Entry.tag_outline, withTag_map Entry.tag_outline]
  cases c with
  | put home entry =>
    have hentry : entry.outline = entry := (Entry.WellFormed.plain h).2
    rw [actListed, act, target, withTag_put, List.map_cons, hentry, List.map_tail]
  | replace home entry =>
    have hentry : entry.outline = entry := (Entry.WellFormed.plain h).2
    rw [actListed, act, target, putIfThere_eq_modifyTag, withTag_modifyTag fun _ _ => rfl]
    cases withTag entry.tag es with
    | nil => rfl
    | cons e rest => rw [List.modifyHead_cons, List.map_cons, List.map_cons, hentry]; rfl
  | drop home tag =>
    rw [actListed, act, target, withTag_drop]
    rfl

/-- What a change does to another tag. -/
theorem withTag_act_ne {tag : UInt16} (hne : tag ≠ c.target.2) (es : List Entry) :
    withTag tag (c.act es) = withTag tag es := by
  cases c with
  | put home entry => exact withTag_put_ne hne es
  | replace home entry =>
    rw [act, putIfThere_eq_modifyTag]
    exact withTag_modifyTag_ne (fun _ _ => rfl) hne es
  | drop home tag => exact withTag_drop_ne hne es

/-- A change that has been made changes nothing. -/
theorem actListed_actListed (c : Change) (es : List Entry) :
    c.actListed (c.actListed es) = c.actListed es := by
  cases c with
  | put home entry => rfl
  | replace home entry => cases es <;> rfl
  | drop home tag => rfl

/-- A change that its own tag does not need, the directory does not need. -/
theorem Plain.act_eq_self (h : c.Plain) {es : List Entry}
    (hlisted : c.actListed (withTag c.target.2 (es.map Entry.outline)) =
      withTag c.target.2 (es.map Entry.outline)) : c.act es = es := by
  -- What stands first under the tag is the entry to put, since only a value looks like one.
  have hfirst : ∀ entry : Entry, entry.WellFormed 0 →
      (withTag entry.tag (es.map Entry.outline)).head? = some entry →
        find? entry.tag es = some entry := by
    intro entry hentry hhead
    rw [withTag_map Entry.tag_outline, List.head?_map, head?_withTag] at hhead
    obtain ⟨e, he, houtline⟩ := Option.map_eq_some_iff.1 hhead
    cases hentry with
    | value plain full => rwa [Entry.outline_eq_value.1 houtline] at he
  cases c with
  | put home entry =>
    rw [actListed, target] at hlisted
    have hfind := hfirst entry h (by rw [← hlisted, List.head?_cons])
    have hsome : (find? entry.tag es).isSome := Option.isSome_of_eq_some hfind
    rw [act, put_eq_modifyTag hsome]
    exact modifyTag_eq_self fun e he => Option.some.inj (hfind.symm.trans he)
  | replace home entry =>
    rw [act, putIfThere_eq_modifyTag]
    refine modifyTag_eq_self fun e he => ?_
    have hhead : (withTag entry.tag (es.map Entry.outline)).head? = some e.outline := by
      rw [withTag_map Entry.tag_outline, List.head?_map, head?_withTag, he, Option.map_some]
    rw [actListed, target] at hlisted
    have hentry : (withTag entry.tag (es.map Entry.outline)).head? = some entry := by
      rw [← hlisted, List.head?_modifyHead, hhead, Option.map_some]
    exact Option.some.inj ((hfirst entry h hentry).symm.trans he)
  | drop home tag =>
    rw [actListed, target] at hlisted
    have hnone : withTag tag es = [] := by
      rw [withTag_map Entry.tag_outline] at hlisted
      exact List.map_eq_nil_iff.1 hlisted.symm
    refine List.filter_eq_self.2 fun e he => bne_iff_ne.2 fun heq => ?_
    exact List.ne_nil_of_mem (mem_withTag.2 ⟨he, heq⟩) hnone

/-- So it leaves entries as reading makes them. -/
theorem Plain.allWellFormed (h : c.Plain) {levels : Nat} {es : List Entry}
    (hes : AllWellFormed levels es) : AllWellFormed levels (c.act es) := by
  cases c with
  | put home entry => exact hes.put (Entry.WellFormed.value_mono h levels)
  | replace home entry => exact hes.putIfThere (Entry.WellFormed.value_mono h levels)
  | drop home tag => exact hes.drop

end Change

/-! ### One change of a block -/

/-- An edit that the directory at the end of the path needs no more changes nothing. -/
theorem editedAt_eq_self {f : List Entry → List Entry} :
    ∀ {path : List UInt16}, (∀ tag ∈ path, isPointer tag = true) → ∀ {es : List Entry},
      (∀ sub, below (path.map fun tag => (tag, 0)) es = some sub → f sub = sub) →
        editedAt f path es = es
  | [], _, es, h => h es rfl
  | tag :: path, hpath, es, h => by
    rw [List.forall_mem_cons] at hpath
    refine modifyTag_eq_self fun e he => ?_
    cases e with
    | value => rfl
    | directory t kind sub =>
      refine congrArg _ (editedAt_eq_self hpath.2 fun inner hinner => h inner ?_)
      rw [List.map_cons, below, if_pos hpath.1, ← List.head?_eq_getElem?, head?_withTag, he]
      exact hinner

/-- The known directories have different places. -/
theorem Section.place_injective : Function.Injective Section.place := by
  intro s t
  cases s <;> cases t <;> decide

namespace Change

variable {c : Change}

/-- No change turns the byte order. -/
theorem order_apply (exif : Exif) (c : Change) : (c.apply exif).order = exif.order := by
  rw [apply, edit_eq]

/-- **A change changes the listing of its tag.** -/
theorem Plain.listing_apply (h : c.Plain) (exif : Exif) :
    listing c.target.1.place c.target.2 (c.apply exif).entries =
      (listing c.target.1.place c.target.2 exif.entries).map c.actListed := by
  rw [apply, edit_eq, listing, listing, outlines, outlines, Section.place, below_editedAt]
  cases below (c.target.1.path.map fun tag => (tag, 0)) exif.entries with
  | none => rfl
  | some es => exact congrArg some (h.listed es)

/-- **A change changes no directory but its own.** -/
theorem Plain.outlines_apply_ne (h : c.Plain) (exif : Exif) {place : Place}
    (hne : place ≠ c.target.1.place) :
    outlines place (c.apply exif).entries = outlines place exif.entries := by
  rw [apply, edit_eq]
  refine outlines_editedAt (fun tag htag es => withTag_act_ne (fun heq => ?_) es) hne _
  rw [heq, h.isPointer] at htag
  cases htag

/-- **A change changes no listing but that of its tag.** -/
theorem Plain.listing_apply_ne (h : c.Plain) (exif : Exif) {place : Place} {tag : UInt16}
    (hne : ¬(place = c.target.1.place ∧ tag = c.target.2)) :
    listing place tag (c.apply exif).entries = listing place tag exif.entries := by
  by_cases hplace : place = c.target.1.place
  · have htag : tag ≠ c.target.2 := fun heq => hne ⟨hplace, heq⟩
    rw [hplace, apply, edit_eq, listing, listing, outlines, outlines, Section.place, below_editedAt]
    cases below (c.target.1.path.map fun tag => (tag, 0)) exif.entries with
    | none => rfl
    | some es =>
      simp only [Option.map_some]
      rw [withTag_map Entry.tag_outline, withTag_map Entry.tag_outline, withTag_act_ne htag]
  · rw [listing, listing, h.outlines_apply_ne exif hplace]

/-- A change whose tag does not need it changes nothing. -/
theorem Plain.apply_eq_self (h : c.Plain) {exif : Exif}
    (hlisting : (listing c.target.1.place c.target.2 exif.entries).map c.actListed =
      listing c.target.1.place c.target.2 exif.entries) : c.apply exif = exif := by
  rw [apply, edit_eq, editedAt_eq_self isPointer_of_mem_path]
  intro sub hsub
  refine h.act_eq_self (Option.some.inj ?_)
  rwa [listing, outlines, Section.place, hsub] at hlisting

end Change

/-! ### A list of changes -/

variable {cs : List Change}

/-- Nor do several. -/
theorem order_foldl_apply (cs : List Change) (exif : Exif) :
    (cs.foldl Change.apply exif).order = exif.order := by
  induction cs generalizing exif with
  | nil => rfl
  | cons c cs ih => rw [List.foldl_cons, ih, c.order_apply]

/-- Plain changes leave a block as reading makes it, however many there are. -/
theorem AllWellFormed.foldl_apply {levels : Nat} (hplain : ∀ c ∈ cs, c.Plain) {exif : Exif}
    (hes : AllWellFormed levels exif.entries) :
    AllWellFormed levels (cs.foldl Change.apply exif).entries := by
  induction cs generalizing exif with
  | nil => exact hes
  | cons c cs ih =>
    rw [List.forall_mem_cons] at hplain
    exact ih hplain.2 (hes.edit (fun _ _ => hplain.1.allWellFormed) c.target.1)

/-- **A directory that is none of the known ones stays as it is.** -/
theorem outlines_foldl_of_ne (hplain : ∀ c ∈ cs, c.Plain) {place : Place}
    (hne : ∀ s : Section, place ≠ s.place) (exif : Exif) :
    outlines place (cs.foldl Change.apply exif).entries = outlines place exif.entries := by
  induction cs generalizing exif with
  | nil => rfl
  | cons c cs ih =>
    rw [List.forall_mem_cons] at hplain
    rw [List.foldl_cons, ih hplain.2, hplain.1.outlines_apply_ne exif (hne _)]

/-- **A list of changes leaves every listing alone that none of them is about.** -/
theorem listing_foldl_of_ne (hplain : ∀ c ∈ cs, c.Plain) {place : Place} {tag : UInt16}
    (hne : ∀ c ∈ cs, ¬(place = c.target.1.place ∧ tag = c.target.2)) (exif : Exif) :
    listing place tag (cs.foldl Change.apply exif).entries = listing place tag exif.entries := by
  induction cs generalizing exif with
  | nil => rfl
  | cons c cs ih =>
    rw [List.forall_mem_cons] at hplain hne
    rw [List.foldl_cons, ih hplain.2 hne.2, hplain.1.listing_apply_ne exif hne.1]

/-- **Every change of a list is made,** where no two are about the same. -/
theorem listing_foldl_of_mem (hplain : ∀ c ∈ cs, c.Plain) (hnodup : (cs.map Change.target).Nodup)
    {c : Change} (hc : c ∈ cs) (exif : Exif) :
    listing c.target.1.place c.target.2 (cs.foldl Change.apply exif).entries =
      (listing c.target.1.place c.target.2 exif.entries).map c.actListed := by
  induction cs generalizing exif with
  | nil => cases hc
  | cons d cs ih =>
    rw [List.forall_mem_cons] at hplain
    rw [List.map_cons, List.nodup_cons] at hnodup
    have hapart : ∀ b ∈ cs, ¬(d.target.1.place = b.target.1.place ∧ d.target.2 = b.target.2) :=
      fun b hb heq => hnodup.1 <| List.mem_map.2
        ⟨b, hb, Prod.ext (Section.place_injective heq.1).symm heq.2.symm⟩
    rw [List.foldl_cons]
    -- Either the change comes first and the others leave it alone, or the first one leaves its
    -- listing alone and it is among the others.
    rcases List.mem_cons.1 hc with rfl | hc
    · rw [listing_foldl_of_ne hplain.2 hapart, hplain.1.listing_apply]
    · rw [ih hplain.2 hnodup.2 hc, hplain.1.listing_apply_ne exif fun heq =>
        hapart c hc ⟨heq.1.symm, heq.2.symm⟩]

/-- Changes that change nothing one by one change nothing together. -/
theorem foldl_apply_eq_self {exif : Exif} (h : ∀ c ∈ cs, c.apply exif = exif) :
    cs.foldl Change.apply exif = exif := by
  induction cs with
  | nil => rfl
  | cons c cs ih =>
    rw [List.forall_mem_cons] at h
    rw [List.foldl_cons, h.1, ih h.2]

/-- **A list of changes, made and put in tag order, changes nothing any more.** -/
theorem foldl_apply_normalised (hplain : ∀ c ∈ cs, c.Plain)
    (hnodup : (cs.map Change.target).Nodup) (exif : Exif) :
    cs.foldl Change.apply (cs.foldl Change.apply exif).normalised =
      (cs.foldl Change.apply exif).normalised := by
  refine foldl_apply_eq_self fun c hc => (hplain c hc).apply_eq_self ?_
  rw [listing_normalised, listing_foldl_of_mem hplain hnodup hc, Option.map_map]
  exact congrArg (Option.map · _) (funext c.actListed_actListed)

end Exif

end Raster
