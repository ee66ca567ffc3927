/-
# No generation loss

A container that is loaded from memory and saved to memory again, over and over, does
not change after the first time (`Session.generation_stock`).

| step | what it does to a container |
| --- | --- |
| load | opens it, or hands out a load that the cache has under its key |
| save | fetches all pixels and writes what survives (`Save.run_reads`) |

A key may in principle belong to two containers. This does no harm here, since every
load that the cache has comes to the same container when it is saved (`World.Settled`).
-/
import Raster.Codec.Simple
import Raster.Proofs.Native.Generations
import Raster.Proofs.Native.Loads
import Raster.Proofs.Save.Perform

namespace Raster

/-! ### Saving what was loaded -/

namespace Native

/-- The name of the operation that saves containers to memory. -/
def bufferSave : String := "nimgsave_buffer"

/-- The container that an image loaded from one is saved to. -/
def Layout.next (layout : Layout) (bytes : Bytes) : Bytes :=
  layout.resaved bytes bufferLoad .random .all

end Native

namespace Save

/-- The saver of containers takes every image as it is. -/
theorem convertSaveable_native {io : IoKind} (image : Image LoadId) (background : List Double)
    (colour : ColourEngine LoadId) :
    Normalize.convertSaveable image (SaveFormat.native.descriptor io).saveable
      (SaveFormat.native.descriptor io).table (SaveFormat.native.descriptor io).codings background
      colour = .ok image := by
  have haccepts : (SaveFormat.native.descriptor io).codings.accepts image.header.coding = true := by
    cases image.header.coding <;> rfl
  rw [Normalize.convertSaveable]
  by_cases hplain : image.header.coding = .none
  · rw [if_neg fun hpass => hpass.1 hplain, if_pos ⟨hplain, rfl, rfl⟩]
    rfl
  · rw [if_pos ⟨hplain, haccepts⟩]
    rfl

/-- Containers take every image as it is, so making one ready is dropping metadata. -/
theorem ready_native {io : IoKind} {settings : SaveSettings} (hprofile : settings.profile = none)
    (hpages : settings.pageHeight = none) (colour : ColourEngine LoadId) (files : Files)
    (image : Image LoadId) :
    ready (SaveFormat.native.descriptor io) settings colour files image
      = .ok (image.retain settings.keep) := by
  rw [ready, convertSaveable_native]
  simp only [embedProfile, hprofile, setPageHeight, hpages, bind, Except.bind, List.append_nil]
  rfl

/-- The saver of containers puts one behind what a buffer holds, once it has the pixels. -/
theorem perform_native {image : Image LoadId} {name : String} {options : Options} {pixels : Bytes}
    {w v : World}
    (hfetched : (w.warnAll (LoadContext.unknownOptions name options)).fetchAll image
      = (.ok pixels, v)) (old : Bytes) :
    perform image (Native.saver.save (job name image options)) (.buffer old, w) =
      (.ok (), .buffer (old ++ Native.encode .machine image.header image.metadata pixels),
        v.warnAll (Native.omitted name .machine image.metadata)) := by
  have hpixels : perform image (Saving.fetchAll image.header)
      (.buffer old, w.warnAll (LoadContext.unknownOptions name options))
        = (.ok pixels, .buffer old, v) := by rw [perform_fetchAll, hfetched]
  have hencoded : perform image (Native.encoded (job name image options)) (.buffer old, w) =
      (.ok (Native.encode .machine image.header image.metadata pixels), .buffer old,
        v.warnAll (Native.omitted name .machine image.metadata)) := by
    rw [Native.encoded, perform_bind]
    show perform image (Saving.fetchAll image.header >>= _) (.buffer old, w.warnAll _) = _
    rw [perform_bind]
    exact congrArg (next · _) hpixels
  show perform image (Native.encoded (job name image options) >>= Saving.put) _ = _
  rw [perform_bind, hencoded]
  rfl

/-- **Saving an image that was loaded from a container** puts the next container behind what the
buffer holds. -/
theorem run_reads {w : World} {id : LoadId} {bytes : Bytes} {layout : Native.Layout}
    (h : w.Reads id bytes layout) (identity : Identity) (colour : ColourEngine LoadId)
    (old : Bytes) :
    ∃ receipt w', run { descriptor := SaveFormat.native.descriptor .buffer, saver := Native.saver }
        (layout.image id identity) (.buffer old) {} {} colour w
        = (.ok receipt, .buffer (old ++ layout.next bytes), w') ∧ w.Onward w' := by
  let name := (SaveFormat.native.descriptor .buffer).name
  have htake : SaveSettings.take {} {} = .ok (.ofConfig {}, {}) := rfl
  have hready : ready (SaveFormat.native.descriptor .buffer) (.ofConfig {}) colour w.files
      (layout.image id identity) = .ok ((layout.image id identity).retain .all) :=
    ready_native rfl rfl colour w.files _
  obtain ⟨image, hretained⟩ : ∃ image, (layout.image id identity).retain .all = image := ⟨_, rfl⟩
  have hheader : image.1.header = layout.header := hretained ▸ rfl
  have hsource : image.1.source = .pending identity id := hretained ▸ rfl
  have hnext : Native.encode .machine image.1.header image.1.metadata (layout.body bytes)
      = layout.next bytes := hretained ▸ rfl
  -- the warnings before the pixels are fetched
  let warned := (w.warnAll image.2).warnAll (LoadContext.unknownOptions name {})
  have hwarned : w.Onward warned := World.onward_of_eq rfl rfl
  obtain ⟨v, hfetched, honward⟩ :=
    World.fetchAll_reads hheader hsource (hwarned.reads id bytes layout h)
  have hperformed : perform image.1 (Native.saver.save (job name image.1 {})) _ = _ :=
    perform_native hfetched old
  rw [hnext] at hperformed
  refine ⟨{ saver := name, ready := image.1, options := {} },
    v.warnAll (Native.omitted name .machine image.1.metadata), ?_,
    hwarned.trans (honward.trans (World.onward_of_eq rfl rfl))⟩
  rw [run, htake]
  dsimp only
  rw [if_neg fun hkind => hkind rfl, hready, hretained]
  dsimp only
  rw [hperformed]
  rfl

end Save

/-! ### Generations -/

/-- What a target in memory holds. -/
def Target.held : Target → Bytes
  | .file _ => []
  | .buffer bytes | .stream bytes => bytes

/-- Every load that the cache has comes to the same container when it is saved. -/
def World.Settled (w : World) (out : Bytes) : Prop :=
  w.CachesOnly fun bytes layout => layout.next bytes = out

namespace Session

/-- The session with the built-in handlers, for some engine, and stock settings. -/
def stock (engine : PictureEngine) : Session := { registry := .builtin engine }

/-- The container that a container is saved to after it was loaded, all in memory. -/
def resave (s : Session) (bytes : Bytes) (w : World) : Except Error Bytes × World :=
  next (s.loadWith Native.bufferLoad (.buffer bytes) {} w) fun image w =>
    let (saved, target, w) := s.saveWith Native.bufferSave image (.buffer []) {} w
    (saved.map fun _ => target.held, w)

/-- What becomes of a container that is loaded and saved `n` times. -/
def generation (s : Session) (bytes : Bytes) : (n : Nat) → World → Except Error Bytes × World
  | 0, w => (.ok bytes, w)
  | n + 1, w => next (s.generation bytes n w) s.resave

variable {engine : PictureEngine} {bytes out : Bytes} {layout : Native.Layout} {w : World}

/-- A new session has nothing in its cache. -/
theorem get?_start (s : Session) (host : Host) (key : String) :
    (s.start host).cache.table.get? key = none := rfl

/-- Loading a container from memory is the load of its buffer. -/
theorem loadWith_stock (bytes : Bytes) :
    ∃ p, Native.IsBufferLoad p bytes ∧
      ∀ w, (stock engine).loadWith Native.bufferLoad (.buffer bytes) {} w = p.load w := by
  obtain ⟨entry, hfound, hdescriptor, hloader⟩ := Registry.loader_builtin (.native .buffer)
  refine ⟨{ entry, input := .buffer bytes, options := {}, settings := {} },
    ⟨hdescriptor, hloader, rfl, rfl⟩, fun w => ?_⟩
  have hfound : (stock engine).registry.loader Native.bufferLoad = .ok entry := hfound
  have hkind : entry.descriptor.io = .buffer := hdescriptor ▸ rfl
  rw [loadWith, hfound]
  dsimp only
  rw [if_neg fun hio => hio hkind]
  exact (stock engine).load_eq entry (.buffer bytes) {} w

/-- Saving one to memory is a run of its saver. -/
theorem saveWith_stock (image : Image LoadId) (target : Target) (w : World) :
    (stock engine).saveWith Native.bufferSave image target {} w =
      Save.run { descriptor := SaveFormat.native.descriptor .buffer, saver := Native.saver } image
        target {} {} Colour.basic w := by
  have hfound : (stock engine).registry.saver Native.bufferSave = .ok _ :=
    Registry.saver_builtin .native .buffer
  rw [saveWith, hfound]
  rfl

/-- **One generation,** while all that the cache has comes to the same container. -/
theorem resave_stock (hlayout : Native.readLayout .memory bytes = .ok layout)
    (hnext : layout.next bytes = out) (hw : w.Settled out) :
    ∃ w', (stock engine).resave bytes w = (.ok out, w') ∧ w'.Settled out := by
  obtain ⟨p, hp, hload⟩ := loadWith_stock bytes
  obtain ⟨bytes', layout', id, identity, w₁, hloaded, hnext', hreads, hsettled⟩ :=
    Native.load_reads hp hlayout hw hnext
  obtain ⟨receipt, w₂, hsaved, honward⟩ := Save.run_reads hreads identity Colour.basic []
  refine ⟨w₂, ?_, honward.cachesOnly hsettled⟩
  rw [resave, hload, hloaded]
  dsimp only [next]
  rw [saveWith_stock, hsaved, List.nil_append, hnext']
  rfl

/-- Any number of generations, from a container that is its own next one on. -/
theorem exists_generation_stock {again : Native.Layout}
    (hlayout : Native.readLayout .memory bytes = .ok layout) (hnext : layout.next bytes = out)
    (hagain : Native.readLayout .memory out = .ok again) (hstays : again.next out = out)
    (hw : w.Settled out) (n : Nat) :
    ∃ w', (stock engine).generation bytes (n + 1) w = (.ok out, w') ∧ w'.Settled out := by
  induction n with
  | zero => exact resave_stock hlayout hnext hw
  | succ n ih =>
    obtain ⟨w₁, hbefore, hsettled⟩ := ih
    obtain ⟨w', hresave, hsettled'⟩ := resave_stock hagain hstays hsettled
    refine ⟨w', ?_, hsettled'⟩
    rw [generation, hbefore]
    exact hresave

/-- **No generation loss.** A new session with stock settings loads a container from memory. The
image has at most 2 ^ 31 fields, the name of its loader among them, and room for its EXIF block (no
buffer that a machine can address has 2 ^ 63 bytes). Then there is a container, the first
generation, that every later generation is equal to: each load and each save succeeds, and from the
second on nothing changes. Nor does it change in another session. -/
theorem generation_stock {image : Image LoadId} {host : Host}
    (hshort : bytes.length < 0x8000000000000000)
    (hloaded : ((stock engine).loadWith Native.bufferLoad (.buffer bytes) {}
      ((stock engine).start host)).1 = .ok image)
    (hfields : image.metadata.size ≤ 0x80000000)
    (hroom : Exif.HasRoom image.metadata image.header) :
    ∃ first,
      (∀ n, ((stock engine).generation bytes (n + 1) ((stock engine).start host)).1 = .ok first) ∧
      ∀ other, ((stock engine).resave first ((stock engine).start other)).1 = .ok first := by
  obtain ⟨p, hp, hload⟩ := loadWith_stock bytes
  rw [hload] at hloaded
  obtain ⟨layout, hlayout⟩ := Native.readable_of_load hp ((stock engine).get?_start host) hloaded
  obtain ⟨id, identity, himage⟩ := Native.load_of_empty hp ((stock engine).get?_start host) hlayout
  obtain rfl := Except.ok.inj (himage.symm.trans hloaded)
  have hsettled : ∀ host, ((stock engine).start host).Settled (layout.next bytes) :=
    fun host => World.cachesOnly_of_empty ((stock engine).get?_start host)
  -- The bytes of the first generation are a fixed point: read and saved again they are the same.
  obtain ⟨again, hagain, hstays⟩ :
      ∃ again, Native.readLayout .memory (layout.next bytes) = .ok again ∧
        again.next (layout.next bytes) = layout.next bytes := by
    have hcount : (Operation.published Native.bufferLoad .random layout.metadata).size + 1
        < UInt32.size := Nat.lt_of_le_of_lt (Nat.succ_le_succ hfields) (by decide)
    obtain ⟨again, hagain, hstays⟩ := Native.Layout.resaved_resaved hlayout hshort (by decide)
      hcount fun _ => hroom
    exact ⟨again, hagain, hstays .random⟩
  refine ⟨layout.next bytes, fun n => ?_, fun other => ?_⟩
  · obtain ⟨_, hgeneration, -⟩ := exists_generation_stock hlayout rfl hagain hstays
      (hsettled host) n
    rw [hgeneration]
  · obtain ⟨_, hresave, -⟩ := resave_stock hagain hstays (hsettled other)
    rw [hresave]

/-- A container in the other byte order, with a block to bring up to date and a profile that is
none: the first generation is another container, which stays as it is. -/
theorem generation_stock_annotated :
    let bytes := Native.encode .big Exif.annotatedHeader Exif.annotatedMetadata [1, 0, 2, 0]
    ∃ image first, bytes.length < 0x8000000000000000 ∧
      ((stock .simple).loadWith Native.bufferLoad (.buffer bytes) {}
        ((stock .simple).start {})).1 = .ok image ∧
      image.metadata.size ≤ 0x80000000 ∧ Exif.HasRoom image.metadata image.header ∧
      (∀ n, ((stock .simple).generation bytes (n + 1) ((stock .simple).start {})).1 = .ok first) ∧
      first ≠ bytes := by
  intro bytes
  let layout : Native.Layout :=
    { header := Exif.annotatedHeader, order := .big, metadata := Exif.annotatedMetadata
      pixels := UInt64.ofNat (Native.pixelStart .big Exif.annotatedHeader) }
  have hs : Native.Storable Exif.annotatedHeader := by constructor <;> decide
  have hshort : bytes.length < 0x8000000000000000 := by decide +kernel
  have hwritten : Native.written .big Exif.annotatedMetadata = Exif.annotatedMetadata := by decide
  have hlayout : Native.readLayout .memory bytes = .ok layout :=
    (Native.readLayout_encode_ok hs (by decide) (by decide) hshort .memory).trans
      (by rw [hwritten])
  obtain ⟨p, hp, hload⟩ := loadWith_stock bytes
  obtain ⟨id, identity, himage⟩ := Native.load_of_empty hp ((stock .simple).get?_start {}) hlayout
  have hloaded : ((stock .simple).loadWith Native.bufferLoad (.buffer bytes) {}
      ((stock .simple).start {})).1 = .ok (layout.image id identity) := (congrArg Prod.fst (hload _)).trans himage
  have hfields : (layout.image id identity).metadata.size ≤ 0x80000000 :=
    Nat.le_trans (Fields.size_insert_le ..) (by decide)
  have hroom : Exif.HasRoom (layout.image id identity).metadata Exif.annotatedHeader :=
    Exif.hasRoom_annotated.published Native.bufferLoad .random
  obtain ⟨first, hall, -⟩ := generation_stock hshort hloaded hfields hroom
  refine ⟨layout.image id identity, first, hshort, hloaded, hfields, hroom, hall, ?_⟩
  -- it is in machine order, which the container is not
  obtain ⟨_, hresave, -⟩ := resave_stock hlayout rfl
    (World.cachesOnly_of_empty ((stock .simple).get?_start {}))
  have hfirst : first = layout.next bytes :=
    Except.ok.inj ((hall 0).symm.trans (congrArg Prod.fst hresave))
  have horder : (layout.next bytes)[5]? = some (Native.orderTag .little) := rfl
  have horder' : bytes[5]? = some (Native.orderTag .big) := rfl
  rintro rfl
  rw [hfirst] at horder'
  cases horder.symm.trans horder'

end Session

end Raster
