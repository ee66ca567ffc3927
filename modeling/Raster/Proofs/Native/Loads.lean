/-
# Loads of containers in memory

What becomes of a load that the loader of containers makes from a buffer. It reads a
container (`Native.ReadBy`), whether its pixels have been cut out of the buffer or will
be:

| step | |
| --- | --- |
| open | reads the layout (`Native.openLoad_reads`) |
| load | opens, or hands out what the cache has under the key (`Native.load_reads`) |
| fetch all | cuts the pixels out and gives the body (`World.fetchAll_reads`) |

No step takes a container away from a load (`World.Onward`). A key may in principle
belong to two containers, so all that can be said of a load that the cache hands out is
what holds of every load that the cache has (`World.CachesOnly`).
-/
import Raster.Proofs.Builtin
import Raster.Proofs.Load.Transparent
import Raster.Proofs.Native.AnyBytes
import Raster.Proofs.Save.Twins

namespace Raster

/-! ### Loads of containers -/

namespace Native

/-- The name of the operation that loads containers from memory. -/
def bufferLoad : String := "nimgload_buffer"

/-- The image of a container that is loaded from memory. -/
def Layout.image (layout : Layout) (id : LoadId) (identity : Identity) : Image LoadId where
  header := layout.header
  metadata := Operation.published bufferLoad .random layout.metadata
  source := .pending identity id

/-- The pixels that are cut out of a container in memory. -/
def Layout.cut (layout : Layout) (bytes : Bytes) : Image Empty :=
  bufferPixels bytes layout.header layout.pixels layout.order

/-- A load of the container in a buffer. Its pixels are cut out of the buffer, or will be when
somebody asks for them. -/
structure ReadBy (layout : Layout) (bytes : Bytes) (op : Operation) : Prop where
  readable : readLayout .memory bytes = .ok layout
  loader : op.entry.loader = loader
  input : op.input = .buffer bytes
  store : op.store = .direct
  header : op.header = layout.header
  metadata : op.metadata = Operation.published bufferLoad .random layout.metadata
  phase : op.phase = .headerRead ∨ op.phase = .decoded (layout.cut bytes)

section

variable {layout : Layout} {bytes : Bytes} {op : Operation}

/-- A load of a container publishes the container's image. -/
theorem ReadBy.image (h : ReadBy layout bytes op) (id : LoadId) (identity : Identity) :
    op.image id identity = layout.image id identity := by
  rw [Operation.image, Layout.image, h.header, h.metadata]

/-- The pixels of a container in memory show its body. -/
theorem cut_shows (hlayout : readLayout .memory bytes = .ok layout) (files : Files) :
    (layout.cut bytes).Shows files (layout.body bytes) := by
  obtain ⟨n, hn⟩ := sized_of_readLayout hlayout
  have hoffset := pixels_of_readLayout hlayout
  have hend := pixels_end_le hlayout
  exact bufferPixels_shows hn (by omega) files

/-- The decode step cuts the pixels out. -/
theorem decode_buffer (hlayout : readLayout .memory bytes = .ok layout) {context : LoadContext}
    (hinput : context.input = .buffer bytes) (host : Host) :
    (decode context host).result = .ok (layout.cut bytes) := by
  obtain ⟨n, hn⟩ := sized_of_readLayout hlayout
  have hoffset := pixels_of_readLayout hlayout
  have hend := pixels_end_le hlayout
  obtain ⟨_, _, _, stop, -, -, -, -, hstop, -⟩ := readLayout_eq_ok.1 hlayout
  have hstopNat := (pixelEnd_eq_some hn).1 hstop
  have hlong : ¬bytes.length < stop.toNat := by omega
  simp only [decode, layoutOf, hinput, Input.readAll, mediumOf, hlayout, pixelsOf, hstop,
    if_neg hlong]
  rfl

/-- Decoding it cuts the pixels out of the buffer, whatever became of the host. -/
theorem ReadBy.decoding (h : ReadBy layout bytes op) (host : Host) :
    op.decoding host = .ok (layout.cut bytes) := by
  have hshape : op.header.isCompatible (layout.cut bytes).header = true := by
    rw [h.header]
    exact Header.isCompatible_iff.2 ⟨rfl, rfl, rfl, rfl, rfl⟩
  have hresult : (op.entry.loader.decode op.context host).result = .ok (layout.cut bytes) := by
    rw [h.loader]
    exact decode_buffer h.readable h.input host
  rw [Operation.decoding, hresult]
  refine bind_eq_ok.2 ⟨_, rfl, bind_eq_ok.2 ⟨(), ?_, ?_⟩⟩
  · rw [checkAnnounced, if_pos hshape]
  · rw [h.store, Image.fill]

/-- A load goes on reading its container when it is decoded. -/
theorem ReadBy.advanced (h : ReadBy layout bytes op) (host : Host) :
    ReadBy layout bytes (op.advanced host) := by
  rw [Operation.advanced, h.decoding]
  exact ⟨h.readable, h.loader, h.input, h.store, h.header, h.metadata, .inr rfl⟩

end

end Native

/-! ### Fetching all pixels -/

namespace World

variable {w w' : World} {id : LoadId} {bytes : Bytes} {layout : Native.Layout}

/-- The load with a number reads the container in a buffer. -/
def Reads (w : World) (id : LoadId) (bytes : Bytes) (layout : Native.Layout) : Prop :=
  ∃ op, w.operation? id = some op ∧ Native.ReadBy layout bytes op

/-- From `w` to `w'` every load goes on reading its container, and keys are at most forgotten. -/
structure Onward (w w' : World) : Prop where
  reads : ∀ id bytes layout, w.Reads id bytes layout → w'.Reads id bytes layout
  cached : ∀ key id, w'.cache.table.get? key = some id → w.cache.table.get? key = some id

/-- Nothing has to happen. -/
theorem Onward.refl (w : World) : w.Onward w := ⟨fun _ _ _ h => h, fun _ _ h => h⟩

/-- What happens later happens after what happened before. -/
theorem Onward.trans {w'' : World} (h : w.Onward w') (h' : w'.Onward w'') : w.Onward w'' where
  reads id bytes layout hreads := h'.reads id bytes layout (h.reads id bytes layout hreads)
  cached key id hfound := h.cached key id (h'.cached key id hfound)

/-- Whatever happens to the host makes no difference to what is read from memory. -/
theorem onward_of_eq (hoperations : w'.operations = w.operations) (hcache : w'.cache = w.cache) :
    w.Onward w' where
  reads id bytes layout := by
    rintro ⟨op, hop, hread⟩
    exact ⟨op, by rw [operation?, hoperations]; exact hop, hread⟩
  cached key id hfound := hcache ▸ hfound

/-- **Being asked for pixels,** a load of a container cuts them out. -/
theorem pixels_reads (h : w.Reads id bytes layout) :
    ∃ w', w.pixels id = (.ok (layout.cut bytes), w') ∧ w.Onward w' := by
  obtain ⟨op, hop, hread⟩ := h
  rcases hread.phase with hphase | hphase
  · have hpixels := pixels_headerRead hop hphase
    rw [hread.decoding] at hpixels
    refine ⟨_, hpixels, fun other bytes' layout' => ?_, fun _ _ hfound => hfound⟩
    rintro ⟨found, hfound, hreads⟩
    by_cases hid : id = other
    · subst hid
      obtain rfl := Option.some.inj (hop.symm.trans hfound)
      exact ⟨_, operation?_setOperation hop _, hreads.advanced w.host⟩
    · exact ⟨found, (operation?_setOperation_ne hid _).trans hfound, hreads⟩
  · exact ⟨w, pixels_decoded hop hphase, .refl w⟩

variable {identity : Identity}

/-- A rectangle inside is a window of the container's body. -/
theorem fetch_reads {image : Image LoadId} (hheader : image.header = layout.header)
    (hsource : image.source = .pending identity id) (h : w.Reads id bytes layout) {r : Rect}
    (hfit : r.fits layout.header = true) :
    ∃ w', w.fetch image r = (.ok (r.window layout.header (layout.body bytes)), w') ∧
      w.Onward w' := by
  obtain ⟨w', hpixels, honward⟩ := pixels_reads h
  obtain ⟨op, -, hread⟩ := h
  refine ⟨w', ?_, honward⟩
  rw [fetch_of_fits (by rw [hheader, hfit]), hsource, Source.fetch]
  exact answer_eq_ok hpixels (Native.cut_shows hread.readable w'.files r hfit)

/-- Rectangles inside are fetched one by one, each a window of the container's pixels. -/
theorem fetchEach_reads {image : Image LoadId} (hheader : image.header = layout.header)
    (hsource : image.source = .pending identity id) :
    ∀ (rects : List Rect) {w : World}, w.Reads id bytes layout →
      (∀ r ∈ rects, r.fits layout.header = true) →
      ∃ w', image.fetchEach files answer rects w
        = (.ok (rects.flatMap fun r => r.window layout.header (layout.body bytes)), w') ∧
        w.Onward w'
  | [], w, _, _ => ⟨w, rfl, .refl w⟩
  | r :: rest, w, h, hfit => by
    obtain ⟨w₁, hfirst, honward⟩ := fetch_reads hheader hsource h (hfit r List.mem_cons_self)
    obtain ⟨w₂, hrest, honward'⟩ := fetchEach_reads hheader hsource rest
      (honward.reads id bytes layout h) fun r hr => hfit r (List.mem_cons_of_mem _ hr)
    refine ⟨w₂, ?_, honward.trans honward'⟩
    rw [fetchEach_cons, hfirst]
    dsimp only [next]
    rw [hrest, List.flatMap_cons]

/-- **Fetching all of an image that is loaded from a container** gives the container's body. -/
theorem fetchAll_reads {image : Image LoadId} (hheader : image.header = layout.header)
    (hsource : image.source = .pending identity id) (h : w.Reads id bytes layout) :
    ∃ w', w.fetchAll image = (.ok (layout.body bytes), w') ∧ w.Onward w' := by
  have hlength : (layout.body bytes).length = layout.header.imageBytes := by
    obtain ⟨_, -, hread⟩ := h
    have hoffset := Native.pixels_of_readLayout hread.readable
    have hend := Native.pixels_end_le hread.readable
    exact Native.length_body (by omega)
  obtain ⟨w', hall, honward⟩ := fetchEach_reads hheader hsource
    (Rect.strips image.header Image.stripHeight) h fun r hr =>
      hheader ▸ Rect.fits_of_mem_strips hr
  refine ⟨w', ?_, honward⟩
  rw [fetchAll, Image.fetchAll, hall, hheader, Rect.flatMap_window_strips _ (by decide),
    List.take_of_length_le (by omega)]

end World

/-! ### Loading a container -/

namespace World

variable {w w' : World} {P : Bytes → Native.Layout → Prop}

/-- Every load that the cache has is of a container with a property. -/
def CachesOnly (w : World) (P : Bytes → Native.Layout → Prop) : Prop :=
  ∀ key id, w.cache.table.get? key = some id → ∃ bytes layout, w.Reads id bytes layout ∧
    P bytes layout

/-- An empty cache has no other loads. -/
theorem cachesOnly_of_empty (hempty : ∀ key, w.cache.table.get? key = none) : w.CachesOnly P :=
  fun key _ hfound => nomatch (hempty key).symm.trans hfound

/-- Keys that are forgotten at most name no other loads. -/
theorem Onward.cachesOnly (h : w.Onward w') (hw : w.CachesOnly P) : w'.CachesOnly P := by
  intro key id hfound
  obtain ⟨bytes, layout, hreads, hP⟩ := hw key id (h.cached key id hfound)
  exact ⟨bytes, layout, h.reads id bytes layout hreads, hP⟩

/-- A load of such a container may be kept. -/
theorem CachesOnly.remember {id : LoadId} {bytes : Bytes} {layout : Native.Layout}
    (hw : w.CachesOnly P) (h : w.Reads id bytes layout) (hP : P bytes layout) (key : String) :
    (w.remember key id).CachesOnly P := by
  rw [remember_eq]
  split
  · intro other found hfound
    rcases LoadCache.get?_insert hfound with ⟨-, rfl⟩ | hbefore
    · exact ⟨bytes, layout, h, hP⟩
    · exact hw other found hbefore
  · exact hw

/-- Remembering a load leaves what loads read. -/
theorem Reads.remember {id : LoadId} {bytes : Bytes} {layout : Native.Layout}
    (h : w.Reads id bytes layout) (key : String) (kept : LoadId) :
    (w.remember key kept).Reads id bytes layout := by
  rw [remember_eq]
  split
  · exact h
  · exact h

/-- Asking the cache for a load leaves it too. -/
theorem onward_shared (settings : LoadSettings) (key : Option String) (w : World) :
    w.Onward (Session.shared settings key w).2 := by
  cases key with
  | none => exact .refl w
  | some key =>
    rw [Session.shared]
    split
    · exact .refl w
    · exact ⟨fun _ _ _ h => h, fun _ _ => LoadCache.get?_lookUp⟩

/-- What is published is the container's image. -/
theorem publish_reads {id : LoadId} {bytes : Bytes} {layout : Native.Layout}
    (h : w.Reads id bytes layout) :
    ∃ identity w', w.publish id = (.ok (layout.image id identity), w') ∧ w.Onward w' := by
  obtain ⟨op, hop, hread⟩ := h
  refine ⟨w.newSource.1, w.newSource.2, ?_, onward_of_eq rfl rfl⟩
  rw [← hread.image]
  simp only [publish, hop]

end World

namespace Native

/-- The load of a container from memory, by the loader that is built in. -/
structure IsBufferLoad (p : LoadPlan) (bytes : Bytes) : Prop where
  descriptor : p.entry.descriptor = (LoadFormat.native .buffer).descriptor
  loader : p.entry.loader = loader
  input : p.input = .buffer bytes
  settings : p.settings = {}

variable {p : LoadPlan} {bytes : Bytes} {layout : Layout} {w : World}
  {P : Bytes → Layout → Prop}

/-- A header is found where the buffer holds a container, and is the container's. -/
theorem found_buffer (hp : IsBufferLoad p bytes) (host : Host) {info : ImageInfo} :
    (p.found host).result = .ok info ↔ ∃ layout, readLayout .memory bytes = .ok layout ∧
      info = { header := layout.header, metadata := layout.metadata } := by
  have hread : (p.context.input.readAll (p.asked host).2).1 = .ok bytes := by
    rw [LoadPlan.context, loadContext, hp.input]
    rfl
  have hmedium : mediumOf p.context.input = .memory := by
    rw [LoadPlan.context, loadContext, hp.input]
    rfl
  rw [LoadPlan.found, hp.loader, ← hmedium]
  exact header_eq_ok hread

/-- **Opening a container** in memory. -/
theorem openLoad_reads (hp : IsBufferLoad p bytes) (hlayout : readLayout .memory bytes = .ok layout)
    (w : World) :
    ∃ id w', w.openLoad p.entry p.input p.options p.settings = (.ok id, w') ∧
      w'.Reads id bytes layout ∧ w.Onward w' := by
  have hinfo := (found_buffer hp w.host).2 ⟨layout, hlayout, rfl⟩
  have hphase : Operation.startPhase p.entry.descriptor.name p.entry.loader
      { header := layout.header, metadata := layout.metadata } = .ok .headerRead := by
    rw [hp.loader]
    rfl
  have hpartial : (p.asked w.host).1.isPartial = true := by
    rw [LoadPlan.asked, hp.loader, hp.input]
    rfl
  rw [World.openLoad_eq, hinfo]
  dsimp only [next]
  rw [hphase]
  refine ⟨_, _, rfl, ⟨_, List.getElem?_concat_length, hlayout, hp.loader, hp.input, ?_, rfl, ?_,
    .inl rfl⟩, fun id bytes' layout' => ?_, fun _ _ hfound => hfound⟩
  · rw [Operation.store, LoadPlan.opened, LoadSettings.store, hp.settings, hpartial]
    rfl
  · rw [LoadPlan.opened, hp.descriptor, hp.settings]
    rfl
  · rintro ⟨op, hop, hread⟩
    obtain ⟨hid, -⟩ := List.getElem?_eq_some_iff.1 hop
    exact ⟨op, (List.getElem?_append_left hid).trans hop, hread⟩

/-- Opening a container and keeping the load under its key. -/
theorem openShared_reads (hp : IsBufferLoad p bytes)
    (hlayout : readLayout .memory bytes = .ok layout) (hw : w.CachesOnly P)
    (hP : P bytes layout) :
    ∃ id w', Session.openShared p.entry p.input p.options p.settings p.key w = (.ok id, w') ∧
      w'.Reads id bytes layout ∧ w'.CachesOnly P := by
  obtain ⟨id, w', hopened, hreads, honward⟩ := openLoad_reads hp hlayout w
  have hcached := honward.cachesOnly hw
  rw [Session.openShared, hopened]
  cases p.key with
  | none => exact ⟨id, w', rfl, hreads, hcached⟩
  | some key =>
    exact ⟨id, _, rfl, hreads.remember key id, hcached.remember hreads hP key⟩

/-- **Loading a container** gives its image, or that of a container which the cache had for it. -/
theorem load_reads (hp : IsBufferLoad p bytes) (hlayout : readLayout .memory bytes = .ok layout)
    (hw : w.CachesOnly P) (hP : P bytes layout) :
    ∃ bytes' layout' id identity w', p.load w = (.ok (layout'.image id identity), w') ∧
      P bytes' layout' ∧ w'.Reads id bytes' layout' ∧ w'.CachesOnly P := by
  have honward := World.onward_shared p.settings p.key w
  have hhanded := (LoadPlan.shared_spec (.refl w.host) p.settings p.key).2
  rw [LoadPlan.load]
  generalize Session.shared p.settings p.key w = looked at honward hhanded
  obtain ⟨handed, w₁⟩ := looked
  have hcached := honward.cachesOnly hw
  cases handed with
  | some id =>
    obtain ⟨key, -, hfound⟩ := hhanded id rfl
    obtain ⟨bytes', layout', hreads, hP'⟩ := hw key id hfound
    obtain ⟨identity, w', hpublish, honward'⟩ :=
      World.publish_reads (honward.reads id bytes' layout' hreads)
    exact ⟨bytes', layout', id, identity, w', hpublish, hP',
      honward'.reads id bytes' layout' (honward.reads id bytes' layout' hreads),
      honward'.cachesOnly hcached⟩
  | none =>
    obtain ⟨id, w₂, hopened, hreads, hkept⟩ := openShared_reads hp hlayout hcached hP
    obtain ⟨identity, w', hpublish, honward'⟩ := World.publish_reads hreads
    refine ⟨bytes, layout, id, identity, w', ?_, hP, honward'.reads id bytes layout hreads,
      honward'.cachesOnly hkept⟩
    dsimp only
    rw [hopened]
    exact hpublish

/-- Where the cache has nothing, only a container can be loaded. -/
theorem readable_of_load (hp : IsBufferLoad p bytes)
    (hempty : ∀ key, w.cache.table.get? key = none) {image : Image LoadId}
    (h : (p.load w).1 = .ok image) : ∃ layout, readLayout .memory bytes = .ok layout := by
  have hhanded := (LoadPlan.shared_spec (.refl w.host) p.settings p.key).2
  rw [LoadPlan.load] at h
  generalize Session.shared p.settings p.key w = looked at hhanded h
  obtain ⟨handed, w₁⟩ := looked
  cases handed with
  | some id =>
    obtain ⟨key, -, hfound⟩ := hhanded id rfl
    cases (hempty key).symm.trans hfound
  | none =>
    dsimp only at h
    cases hinfo : (p.found w₁.host).result with
    | error e =>
      rw [Session.openShared, World.openLoad_eq, hinfo] at h
      cases h
    | ok info =>
      obtain ⟨layout, hlayout, -⟩ := (found_buffer hp w₁.host).1 hinfo
      exact ⟨layout, hlayout⟩

/-- **What a container is loaded as** where the cache has nothing. -/
theorem load_of_empty (hp : IsBufferLoad p bytes)
    (hempty : ∀ key, w.cache.table.get? key = none)
    (hlayout : readLayout .memory bytes = .ok layout) :
    ∃ id identity, (p.load w).1 = .ok (layout.image id identity) := by
  have hnone : w.CachesOnly fun _ layout' => layout' = layout := World.cachesOnly_of_empty hempty
  obtain ⟨_, _, id, identity, w', hload, rfl, -, -⟩ := load_reads hp hlayout hnone rfl
  exact ⟨id, identity, congrArg Prod.fst hload⟩

end Native

end Raster
