/-
# What can be seen of a load

With steady loaders, and while the host goes on showing the same, a load is decided
before anything happens: it fails, or it has a header, metadata and perhaps a picture
(`LoadPlan.view`). A load that was opened presents this view for good
(`Operation.Presents`):

| phase | the picture |
| --- | --- |
| `headerRead` | is what the loader would decode |
| `decoded` | is what the store holds a copy of |
| `failed` | is not there |

No step takes a view away from a load (`World.Continues`), whether it opens another
load (`openLoad_presents`), publishes one (`publish_presents`) or fetches pixels
(`fetch_presents`).
-/
import Raster.Proofs.Image.Store
import Raster.Proofs.Load.Steady

namespace Raster

/-! ### What can be seen of a load -/

/-- What can be seen of a load: its header, its metadata and, where they can be had, its pixels. -/
structure View where
  header : Header
  metadata : Metadata
  picture : Option (Image Empty)

/-- The image that a load with this view publishes. -/
def View.image (view : View) (id : LoadId) (identity : Identity) : Image LoadId where
  header := view.header
  metadata := view.metadata
  source := .pending identity id

/-- What a loader decoded, if it has the announced shape. -/
def announcedOnly (announced : Header) (decoded : Except Error (Image Empty)) :
    Option (Image Empty) :=
  decoded.toOption.filter fun image => announced.isCompatible image.header

/-- A loader decodes what it announces. -/
def Loader.KeepsWord (l : Loader) (start : Host) : Prop :=
  ∀ context info, (l.header context start).result = .ok info → l.headerOnly = false →
    ∃ image, (l.decode context start).result = .ok image ∧
      info.header.isCompatible image.header = true

namespace LoadPlan

/-- What the loader sees of the load. -/
def context (p : LoadPlan) : LoadContext := loadContext p.entry p.input p.options p.settings

/-- What can be seen of the load while the host shows what `start` shows. -/
def view (p : LoadPlan) (start : Host) : Except Error View := do
  let info ← (p.entry.loader.header p.context start).result
  let phase ← Operation.startPhase p.entry.descriptor.name p.entry.loader info
  return {
    header := info.header
    metadata := Operation.published p.entry.descriptor.name p.settings.access info.metadata
    picture :=
      match phase with
      | .decoded image => some image
      | _ => announcedOnly info.header (p.entry.loader.decode p.context start).result }

/-- The flags of the load, and the host after a warning about them. -/
def asked (p : LoadPlan) (host : Host) : Flags × Host :=
  let (claimed, host) := p.entry.loader.flags p.input host
  let (flags, warnings) := settleFlags p.entry.descriptor.name claimed
  (flags, host.warnAll warnings)

/-- What reading the header gives. -/
def found (p : LoadPlan) (host : Host) : Outcome ImageInfo :=
  p.entry.loader.header p.context (p.asked host).2

/-- The load when its header has been read. -/
def opened (p : LoadPlan) (flags : Flags) (invalid : Bool) (info : ImageInfo) (phase : Phase) :
    Operation :=
  { p with
    flags, phase, invalid
    header := info.header
    metadata := Operation.published p.entry.descriptor.name p.settings.access info.metadata }

/-- Where its loader keeps its word, a load that can be opened has pixels. -/
theorem exists_picture {p : LoadPlan} {start : Host} {view : View}
    (hkeeps : p.entry.loader.KeepsWord start) (hview : p.view start = .ok view) :
    ∃ picture, view.picture = some picture := by
  obtain ⟨info, hinfo, hview⟩ := bind_eq_ok.1 hview
  obtain ⟨phase, hphase, hview⟩ := bind_eq_ok.1 hview
  obtain rfl := Except.ok.inj hview
  rcases Operation.startPhase_eq_ok hphase with ⟨hlazy, rfl⟩ | ⟨-, image, -, rfl, -⟩
  · obtain ⟨image, hdecoded, hshape⟩ := hkeeps p.context info hinfo hlazy
    refine ⟨image, ?_⟩
    simp [announcedOnly, hdecoded, Except.toOption, hshape]
  · exact ⟨image, rfl⟩

/-- The same load, but for whether the cache is asked. -/
def Same (p q : LoadPlan) : Prop :=
  q = { p with settings := { p.settings with revalidate := q.settings.revalidate } }

/-- The same load has one view, for the cache is no part of it. -/
theorem Same.view {p q : LoadPlan} (h : p.Same q) (start : Host) : q.view start = p.view start := by
  rw [h]
  rfl

end LoadPlan

/-! ### Loads that present a view -/

/-- An image that answers every rectangle as a picture does. -/
structure Image.Copies (image picture : Image Empty) (files : Files) : Prop where
  header : image.header = picture.header
  coherent : ∃ pixels, image.Coherent files pixels ∧ picture.Coherent files pixels

/-- Every rectangle inside can be had from both, and is the same. -/
theorem Image.Copies.fetchFrom {image picture : Image Empty} {files : Files}
    (h : image.Copies picture files) {r : Rect} (hfit : r.fits picture.header = true) :
    ∃ bytes, image.fetchFrom files r = .ok bytes ∧ picture.fetchFrom files r = .ok bytes := by
  obtain ⟨pixels, himage, hpicture⟩ := h.coherent
  refine ⟨_, himage.shows r (h.header ▸ hfit), ?_⟩
  rw [hpicture.shows r hfit, h.header]

/-- A load presents a view: it publishes it, and its pixels are the picture once they are decoded,
will be the picture before, and cannot be had only where there is none. -/
structure Operation.Presents (op : Operation) (start : Host) (view : View) : Prop where
  header : op.header = view.header
  metadata : op.metadata = view.metadata
  steady : op.entry.loader.Steady start
  headerRead : op.phase = .headerRead →
    announcedOnly op.header (op.entry.loader.decode op.context start).result = view.picture
  decoded : ∀ image, op.phase = .decoded image → ∃ picture, view.picture = some picture ∧
    op.header.isCompatible picture.header = true ∧ image.Copies picture start.files
  failed : op.phase = .failed → view.picture = none

namespace Operation

variable {op : Operation} {start host : Host} {view : View}

/-- What a load publishes is the image of its view. -/
theorem Presents.image (h : op.Presents start view) (id : LoadId) (identity : Identity) :
    op.image id identity = view.image id identity := by
  rw [Operation.image, View.image, h.header, h.metadata]

/-- Decoding a load gives the picture, if there is one. -/
theorem Presents.decoding (h : op.Presents start view) (hphase : op.phase = .headerRead)
    (hhost : host.Resembles start) :
    (view.picture = none ∧ ∃ e, op.decoding host = .error e) ∨
      ∃ image picture, op.decoding host = .ok image ∧ view.picture = some picture ∧
        op.header.isCompatible picture.header = true ∧ image.Copies picture start.files := by
  obtain ⟨hresult, hafter⟩ := h.steady.decode op.context host hhost
  have hpicture := h.headerRead hphase
  have hdecoding : op.decoding host
      = op.settle start.files (op.entry.loader.decode op.context start).result := by
    rw [Operation.decoding, ← hafter.files]
    exact congrArg _ hresult
  rw [hdecoding, ← hpicture]
  cases hdecoded : (op.entry.loader.decode op.context start).result with
  | error e => exact .inl ⟨rfl, e, rfl⟩
  | ok picture =>
    obtain ⟨pixels, hcoherent, hshort⟩ := h.steady.decoded op.context picture hdecoded
    by_cases hshape : op.header.isCompatible picture.header = true
    · obtain ⟨stored, hsettle, hheader, hstored⟩ := op.exists_settle hcoherent hshort hshape
      refine .inr ⟨stored, picture, hsettle, ?_, hshape, hheader, pixels, hstored, hcoherent⟩
      simp [announcedOnly, Except.toOption, hshape]
    · obtain ⟨e, hrefused⟩ : ∃ e, checkAnnounced op.header picture.header = .error e :=
        ⟨_, if_neg hshape⟩
      refine .inl ⟨by simp [announcedOnly, Except.toOption, hshape], e, ?_⟩
      simp only [settle, bind, Except.bind, hrefused]

/-- Decoding on a host that shows the same leaves what is presented. -/
theorem Presents.advanced (h : op.Presents start view) (hphase : op.phase = .headerRead)
    (hhost : host.Resembles start) : (op.advanced host).Presents start view := by
  rcases h.decoding hphase hhost with ⟨hnone, e, hdecoding⟩ |
    ⟨image, picture, hdecoding, hsome, hshape, hcopies⟩
  · rw [Operation.advanced, hdecoding]
    refine ⟨h.header, h.metadata, h.steady, ?_, ?_, fun _ => hnone⟩
    · rintro ⟨⟩
    · rintro image ⟨⟩
  · rw [Operation.advanced, hdecoding]
    refine ⟨h.header, h.metadata, h.steady, ?_, ?_, ?_⟩
    · rintro ⟨⟩
    · rintro image' ⟨⟩
      exact ⟨picture, hsome, hshape, hcopies⟩
    · rintro ⟨⟩

end Operation

/-! ### Sessions that keep to the views -/

namespace World

variable {start : Host} {w w' : World} {id : LoadId} {view : View}

/-- The load with a number presents a view. -/
def Presents (w : World) (start : Host) (id : LoadId) (view : View) : Prop :=
  ∃ op, w.operation? id = some op ∧ op.Presents start view

/-- From `w` to `w'`, the host goes on showing what `start` shows, and loads what they presented;
keys are at most forgotten. -/
structure Continues (start : Host) (w w' : World) : Prop where
  host : w'.host.Resembles start
  presents : ∀ id view, w.Presents start id view → w'.Presents start id view
  cached : ∀ key id, w'.cache.table.get? key = some id → w.cache.table.get? key = some id

/-- A session goes on step by step. -/
theorem Continues.trans {w'' : World} (h : w.Continues start w') (h' : w'.Continues start w'') :
    w.Continues start w'' where
  host := h'.host
  presents id view hpresents := h'.presents id view (h.presents id view hpresents)
  cached key id hfound := h.cached key id (h'.cached key id hfound)

/-- Or stands still. -/
theorem Continues.refl (h : w.host.Resembles start) : w.Continues start w :=
  ⟨h, fun _ _ h => h, fun _ _ h => h⟩

/-- Looking at the host goes on. -/
theorem Looks.continues (h : w.Looks start w') : w.Continues start w' where
  host := h.host
  presents id view := by
    rintro ⟨op, hop, hpresents⟩
    exact ⟨op, by rw [operation?, h.operations]; exact hop, hpresents⟩
  cached key id hfound := h.cache ▸ hfound

/-- A load that advances goes on presenting its view, and so does every other load. -/
theorem continues_setOperation {op op' : Operation} (hw : w.host.Resembles start)
    (hop : w.operation? id = some op)
    (hstep : ∀ view, op.Presents start view → op'.Presents start view) :
    w.Continues start (w.setOperation id op') where
  host := hw
  presents other view := by
    rintro ⟨found, hfound, hpresents⟩
    by_cases hid : id = other
    · subst hid
      obtain rfl := Option.some.inj (hop.symm.trans hfound)
      exact ⟨op', operation?_setOperation hop op', hstep view hpresents⟩
    · exact ⟨found, (operation?_setOperation_ne hid op').trans hfound, hpresents⟩
  cached _ _ hfound := hfound

/-- **Being asked for pixels,** a load gives the picture of its view, if there is one. -/
theorem pixels_presents (hw : w.host.Resembles start) (h : w.Presents start id view) :
    w.Continues start (w.pixels id).2 ∧
      ((view.picture = none ∧ ∃ e, (w.pixels id).1 = .error e) ∨
        ∃ image picture, (w.pixels id).1 = .ok image ∧ view.picture = some picture ∧
          view.header.isCompatible picture.header = true ∧ image.Copies picture start.files) := by
  obtain ⟨op, hop, hpresents⟩ := h
  cases hphase : op.phase with
  | decoded image =>
    rw [pixels_decoded hop hphase]
    obtain ⟨picture, hsome, hshape, hcopies⟩ := hpresents.decoded image hphase
    exact ⟨.refl hw, .inr ⟨image, picture, rfl, hsome, hpresents.header ▸ hshape, hcopies⟩⟩
  | failed =>
    rw [pixels_failed hop hphase]
    exact ⟨.refl hw, .inl ⟨hpresents.failed hphase, _, rfl⟩⟩
  | headerRead =>
    rw [pixels_headerRead hop hphase]
    have hafter := (hpresents.steady.decode op.context w.host hw).2
    refine ⟨?_, ?_⟩
    · have hstep : w.Continues start
          { w.record (.decode id) with
            host := (op.entry.loader.decode op.context w.host).host } :=
        Looks.continues ⟨hafter, rfl, rfl⟩
      exact hstep.trans (continues_setOperation hafter hop fun view hview =>
        hview.advanced hphase hw)
    · rw [← hpresents.header]
      exact hpresents.decoding hphase hw

/-- **Fetching a rectangle** inside gives the window of the picture. -/
theorem fetch_presents (hw : w.host.Resembles start) (h : w.Presents start id view)
    (identity : Identity) (r : Rect) :
    let fetched := w.fetch (view.image id identity) r
    w.Continues start fetched.2 ∧ (r.fits view.header = true →
      (view.picture = none ∧ ∃ e, fetched.1 = .error e) ∨
        ∃ picture bytes, view.picture = some picture ∧
          picture.fetchFrom start.files r = .ok bytes ∧ fetched.1 = .ok bytes) := by
  intro fetched
  have hfetched : fetched = w.fetch (view.image id identity) r := rfl
  obtain ⟨op, hop, hpresents⟩ := h
  rw [← hpresents.image] at hfetched
  cases hfit : r.fits view.header with
  | false =>
    rw [fetch_outside (hpresents.header ▸ hfit)] at hfetched
    rw [hfetched]
    exact ⟨.refl hw, nofun⟩
  | true =>
    rw [fetch_inside (hpresents.header ▸ hfit)] at hfetched
    have hpixels := pixels_presents hw ⟨op, hop, hpresents⟩
    cases hasked : w.pixels id with
    | mk result w' =>
      rw [hasked] at hpixels
      obtain ⟨hcontinues, hpixels⟩ := hpixels
      rcases hpixels with ⟨hnone, e, rfl⟩ | ⟨image, picture, rfl, hsome, hshape, hcopies⟩
      · have hrefused : fetched = (.error e, w') := by simp only [hfetched, answer, hasked]
        rw [hrefused]
        exact ⟨hcontinues, fun _ => .inl ⟨hnone, e, rfl⟩⟩
      · obtain ⟨bytes, hread, hpicture⟩ :=
          hcopies.fetchFrom (Rect.fits_of_isCompatible hshape r ▸ hfit)
        rw [hfetched, answer_eq_ok hasked (hcontinues.host.files ▸ hread)]
        exact ⟨hcontinues, fun _ => .inr ⟨picture, bytes, hsome, hpicture, rfl⟩⟩

/-- What a load publishes depicts its view. -/
def Depicts (w : World) (start : Host) (view : View) (image : Image LoadId) : Prop :=
  ∃ id identity, image = view.image id identity ∧ w.Presents start id view

/-- An image depicts its view as long as the load presents it. -/
theorem Depicts.mono {image : Image LoadId} (h : w.Depicts start view image)
    (hpresents : ∀ id view, w.Presents start id view → w'.Presents start id view) :
    w'.Depicts start view image := by
  obtain ⟨id, identity, himage, hshown⟩ := h
  exact ⟨id, identity, himage, hpresents id view hshown⟩

/-- **What is published depicts the view,** whether or not there are pixels yet. -/
theorem publish_presents (hw : w.host.Resembles start) (h : w.Presents start id view) :
    ∃ image w', w.publish id = (.ok image, w') ∧ w.Continues start w' ∧
      w'.Depicts start view image := by
  obtain ⟨op, hop, hpresents⟩ := h
  have hcontinues : w.Continues start w.newSource.2 := Looks.continues ⟨hw, rfl, rfl⟩
  refine ⟨op.image id w.newSource.1, w.newSource.2, ?_, hcontinues, id, w.newSource.1,
    hpresents.image id _, hcontinues.presents id view ⟨op, hop, hpresents⟩⟩
  simp only [publish, hop]

/-- A load presents the view of its plan when it is opened. -/
theorem presents_opened {p : LoadPlan} {info : ImageInfo} {phase : Phase}
    (hsteady : p.entry.loader.Steady start)
    (hinfo : (p.entry.loader.header p.context start).result = .ok info)
    (hphase : Operation.startPhase p.entry.descriptor.name p.entry.loader info = .ok phase)
    (flags : Flags) (invalid : Bool) :
    ∃ view, p.view start = .ok view ∧ (p.opened flags invalid info phase).Presents start view := by
  refine ⟨_, bind_eq_ok.2 ⟨info, hinfo, bind_eq_ok.2 ⟨phase, hphase, rfl⟩⟩, ?_⟩
  rcases Operation.startPhase_eq_ok hphase with
    ⟨-, rfl⟩ | ⟨honly, image, hpixels, rfl, hannounced⟩
  · exact ⟨rfl, rfl, hsteady, fun _ => rfl, fun _ h => (nomatch h), fun h => (nomatch h)⟩
  · obtain ⟨pixels, hcoherent, -⟩ := hsteady.handed honly p.context info image hinfo hpixels
    refine ⟨rfl, rfl, hsteady, fun h => (nomatch h), fun image' himage => ?_,
      fun h => (nomatch h)⟩
    obtain rfl := Phase.decoded.inj himage
    exact ⟨image, rfl, hannounced, rfl, pixels, hcoherent, hcoherent⟩

/-- Opening a load in terms of what its loader sees and finds. -/
theorem openLoad_eq (p : LoadPlan) (w : World) :
    w.openLoad p.entry p.input p.options p.settings =
      next ((p.found w.host).result,
        { w.record (.header p.entry.number) with host := (p.found w.host).host }) fun info looked =>
          next (Operation.startPhase p.entry.descriptor.name p.entry.loader info, looked)
            fun phase looked => (.ok w.operations.length, { looked with
              operations := w.operations ++
                [p.opened (p.asked w.host).1 (p.found w.host).unshared info phase] }) := by
  simp only [openLoad]
  split
  · rename_i e hrefused
    have hrefused : (p.found w.host).result = .error e := hrefused
    rw [hrefused]
    rfl
  · rename_i info hread
    have hread : (p.found w.host).result = .ok info := hread
    simp only [hread, next]
    split <;> rename_i hstart <;> simp only [hstart] <;> rfl

/-- **Opening a load** fails as its view does, or gives a load that presents it. -/
theorem openLoad_presents {p : LoadPlan} (hsteady : p.entry.loader.Steady start)
    (hw : w.host.Resembles start) :
    let opened := w.openLoad p.entry p.input p.options p.settings
    w.Continues start opened.2 ∧
      Agree (fun view id => opened.2.Presents start id view) (p.view start) opened.1 := by
  have hasked : (p.asked w.host).2.Resembles start := (hsteady.flags p.input w.host hw).2.warnAll _
  obtain ⟨hresult, hafter⟩ := hsteady.header p.context _ hasked
  have hresult : (p.found w.host).result = (p.entry.loader.header p.context start).result := hresult
  have hlooked : w.Continues start
      { w.record (.header p.entry.number) with host := (p.found w.host).host } :=
    Looks.continues ⟨hafter, rfl, rfl⟩
  rw [openLoad_eq, hresult]
  cases hinfo : (p.entry.loader.header p.context start).result with
  | error e =>
    rw [LoadPlan.view, hinfo]
    exact ⟨hlooked, .error e⟩
  | ok info =>
    cases hphase : Operation.startPhase p.entry.descriptor.name p.entry.loader info with
    | error e =>
      simp only [LoadPlan.view, hinfo, next, bind, Except.bind, hphase]
      exact ⟨hlooked, .error e⟩
    | ok phase =>
      obtain ⟨view, hview, hpresents⟩ := presents_opened hsteady hinfo hphase
        (p.asked w.host).1 (p.found w.host).unshared
      simp only [hview, next, hphase]
      refine ⟨⟨hlooked.host, ?_, hlooked.cached⟩, .ok ⟨_, List.getElem?_concat_length, hpresents⟩⟩
      rintro id view ⟨op, hop, hshown⟩
      obtain ⟨hid, -⟩ := List.getElem?_eq_some_iff.1 hop
      exact ⟨op, (List.getElem?_append_left hid).trans hop, hshown⟩

end World

end Raster
