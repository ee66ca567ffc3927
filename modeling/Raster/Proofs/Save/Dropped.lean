/-
# Dropped metadata leaks nothing

What a save makes of an image depends on its header, on what its rectangles answer
and on the metadata that it keeps. Two images that agree in these are saved alike:

| step | reads of the metadata |
| --- | --- |
| convert | nothing (`Normalize.twins_convertSaveable`) |
| profile, page height | nothing |
| retain | the fields that are kept (`Metadata.retain_congr`) |
| save | what was retained |

So the ready images are the same but for where their pixels come from
(`ready_agree`), and every saver that writes last fails alike or writes the same bytes
(`run_agree`), whatever was in the fields that were dropped.

The two images may come from different loads. What they show is compared in the world
in which the save starts, and stays alike while it goes on: two loads of containers with
the same pixels are enough for that (`Native.alike_of_reads`).
-/
import Raster.Proofs.Load.ReadOnly
import Raster.Proofs.Native.Loads
import Raster.Proofs.Retain
import Raster.Proofs.Save.Perform

namespace Raster

/-! ### Metadata -/

namespace Metadata

variable {metadata other : Metadata} {keep : Keep}

/-- The block is brought up to date from fields that are kept with it. -/
theorem update_congr (hkeep : keep.exif = true)
    (hkept : ∀ name, keep.keepsField name = true → other.get? name = metadata.get? name)
    (header : Header) :
    (∀ name, keep.keepsField name = true →
      (Exif.update other header).1.get? name = (Exif.update metadata header).1.get? name) ∧
      (Exif.update other header).2 = (Exif.update metadata header).2 := by
  have hsource : ∀ name, Exif.IsSource name → other.get? name = metadata.get? name :=
    fun name hname => hkept name (Keep.keepsField_of_isSource hkeep hname).1
  have hblob : other.get? Metadata.exif = metadata.get? Metadata.exif :=
    hkept Metadata.exif ((show keep.keepsField Metadata.exif = keep.exif from rfl).trans hkeep)
  obtain ⟨hexif, hwarnings⟩ := Exif.update_exif_congr hblob hsource header
  refine ⟨fun name hname => ?_, hwarnings⟩
  by_cases hblock : name = Metadata.exif
  · rw [hblock, hexif]
  · rw [get?_update hblock, get?_update hblock, hkept name hname]

/-- **What survives a save, and what is warned about, is decided by the fields that are kept.** -/
theorem retain_congr
    (hkept : ∀ name, keep.keepsField name = true → other.get? name = metadata.get? name)
    (header : Header) : other.retain header keep = metadata.retain header keep := by
  have hrefresh : (∀ name, keep.keepsField name = true →
      (other.refreshExif header keep).1.get? name =
        (metadata.refreshExif header keep).1.get? name) ∧
      (other.refreshExif header keep).2 = (metadata.refreshExif header keep).2 := by
    cases hkeep : keep.exif with
    | true =>
      rw [refreshExif, refreshExif, if_pos hkeep, if_pos hkeep]
      exact update_congr hkeep hkept header
    | false =>
      rw [refreshExif, refreshExif, if_neg (by rw [hkeep]; decide), if_neg (by rw [hkeep]; decide)]
      exact ⟨hkept, rfl⟩
  have hstrip : (other.refreshExif header keep).1.strip keep
      = (metadata.refreshExif header keep).1.strip keep := by
    refine Fields.ext_get? fun name => ?_
    rw [get?_strip, get?_strip]
    split
    · rename_i hname
      exact hrefresh.1 name hname
    · rfl
  refine Prod.ext ?_ hrefresh.2
  rw [retain_fst, retain_fst, hstrip]

end Metadata

/-! ### Loads that show the same -/

/-- **Two loads of containers with the same pixels show the same,** whatever else the containers
say. -/
theorem Native.alike_of_reads {w : World} {id id' : LoadId} {bytes bytes' : Bytes}
    {layout layout' : Layout} (hreads : w.Reads id bytes layout)
    (hreads' : w.Reads id' bytes' layout') (hheader : layout.header = layout'.header)
    (hbody : layout.body bytes = layout'.body bytes') (hw : w.LeavesFiles)
    (identity identity' : Identity) :
    World.Alike (layout.image id identity) (layout'.image id' identity') w w := by
  let R : World → World → Prop := fun w v => w.Reads id bytes layout ∧ v.Reads id' bytes' layout' ∧
    w.LeavesFiles ∧ v.LeavesFiles ∧ w.files = v.files
  have hworlds : World.Parallel R := by
    refine ⟨fun h => h.2.2.2.2, fun {w v} h messages => ?_⟩
    obtain ⟨hreads, hreads', hw, hv, hfiles⟩ := h
    refine ⟨hreads, hreads', hw, hv, ?_⟩
    rw [(World.keeps_warnAll w messages).files, (World.keeps_warnAll v messages).files, hfiles]
  have htwins : Image.Twins R (layout.image id identity).metadata
      (layout'.image id' identity').metadata (layout.image id identity)
      (layout'.image id' identity') := by
    refine ⟨hheader, rfl, rfl, fun {w v} h r => ?_⟩
    obtain ⟨hreads, hreads', hw, hv, hfiles⟩ := h
    by_cases hfit : r.fits layout'.header = true
    · have hkept := World.keeps_fetch hw (layout.image id identity) r
      have hkept' := World.keeps_fetch hv (layout'.image id' identity') r
      have hopened : (layout.image id identity).header = layout.header := rfl
      have hopened' : (layout'.image id' identity').header = layout'.header := rfl
      obtain ⟨w₁, hfetched, honward⟩ := World.fetch_reads hopened rfl hreads (hheader ▸ hfit)
      obtain ⟨v₁, hfetched', honward'⟩ := World.fetch_reads hopened' rfl hreads' hfit
      rw [hfetched] at hkept ⊢
      rw [hfetched'] at hkept' ⊢
      refine ⟨?_, honward.reads _ _ _ hreads, honward'.reads _ _ _ hreads',
        hkept.leavesFiles hw, hkept'.leavesFiles hv, ?_⟩
      · rw [hheader, hbody]
      · exact hkept.files.trans (hfiles.trans hkept'.files.symm)
    · rw [World.fetch_of_not_fits (fun h => hfit (hheader ▸ h)), World.fetch_of_not_fits hfit]
      exact ⟨rfl, hreads, hreads', hw, hv, hfiles⟩
  exact htwins.alike hworlds ⟨hreads, hreads', hw, hw, rfl⟩

/-! ### Ready images -/

namespace Save

variable {R : World → World → Prop} {a b : Image LoadId} {m n : Metadata}

/-- What two images say that are the same but for where their pixels come from, and what was warned
about on the way. -/
structure Interchangeable (R : World → World → Prop) (x y : Image LoadId × List String) : Prop where
  twins : Image.Twins R y.1.metadata y.1.metadata x.1 y.1
  warnings : x.2 = y.2

/-- Embedding a profile makes the same field of both. -/
theorem twins_embedProfile {keep : Keep} {files : Files} {profile : Option String}
    (htwins : Image.Twins R m n a b)
    (hkept : ∀ name, keep.keepsField name = true → m.get? name = n.get? name) :
    Agree (fun a b => Image.Twins R a.metadata b.metadata a b ∧
        ∀ name, keep.keepsField name = true → a.metadata.get? name = b.metadata.get? name)
      (embedProfile files profile a) (embedProfile files profile b) := by
  obtain rfl := htwins.left
  obtain rfl := htwins.right
  cases profile with
  | none => exact .ok ⟨htwins, hkept⟩
  | some path =>
    simp only [embedProfile]
    split
    · refine .ok ⟨htwins.withMetadata _ _, fun name hname => ?_⟩
      rw [Fields.get?_insert, Fields.get?_insert, hkept name hname]
    · exact .error _

/-- Twins that agree in what is kept are the same after everything else was dropped. -/
theorem interchangeable_retain {keep : Keep} (htwins : Image.Twins R a.metadata b.metadata a b)
    (hkept : ∀ name, keep.keepsField name = true →
      a.metadata.get? name = b.metadata.get? name) :
    Interchangeable R (a.retain keep) (b.retain keep) := by
  have hretain : a.metadata.retain a.header keep = b.metadata.retain b.header keep := by
    rw [htwins.header, Metadata.retain_congr hkept]
  have hleft : a.retain keep = ({ a with metadata := (b.metadata.retain b.header keep).1 },
      (b.metadata.retain b.header keep).2) := by
    rw [Image.retain, hretain]
  exact ⟨hleft ▸ htwins.withMetadata _ _, by rw [hleft]; rfl⟩

/-- They get the same height of a page. -/
theorem interchangeable_setPageHeight (name : String) (pageHeight : Option UInt32)
    (htwins : Image.Twins R b.metadata b.metadata a b) :
    Interchangeable R (setPageHeight name pageHeight a) (setPageHeight name pageHeight b) := by
  cases pageHeight with
  | none => exact ⟨htwins, rfl⟩
  | some rows =>
    obtain ⟨header, metadata, source⟩ := a
    obtain rfl : header = b.header := htwins.header
    obtain rfl : metadata = b.metadata := htwins.left
    exact ⟨htwins.withMetadata _ _, rfl⟩

/-- **Twins that agree in the metadata to keep are made ready alike.** -/
theorem ready_agree {colour : ColourEngine LoadId} (hcolour : colour.Blind)
    (descriptor : Descriptor) (settings : SaveSettings) (files : Files)
    (htwins : Image.Twins R m n a b)
    (hkept : ∀ name, settings.keep.keepsField name = true → m.get? name = n.get? name) :
    Agree (Interchangeable R) (ready descriptor settings colour files a)
      (ready descriptor settings colour files b) := by
  refine agree_bind (Normalize.twins_convertSaveable hcolour _ _ _ htwins) fun a b htwins => ?_
  refine agree_bind (twins_embedProfile htwins hkept) fun a b hembedded => ?_
  obtain ⟨htwins, hkept⟩ := hembedded
  have hretained := interchangeable_retain htwins hkept
  have hpaged := interchangeable_setPageHeight descriptor.name settings.pageHeight hretained.twins
  exact .ok ⟨hpaged.twins, congrArg₂ _ hretained.warnings hpaged.warnings⟩

/-! ### Saves -/

/-- What two saves in a world have in common: who saved and what was left for the saver; and the
ready images can be taken for each other. -/
structure Receipt.Same (w : World) (x y : Receipt) : Prop where
  saver : x.saver = y.saver
  options : x.options = y.options
  header : x.ready.header = y.ready.header
  metadata : x.ready.metadata = y.ready.metadata
  pixels : World.Alike x.ready y.ready w w

/-- Two saves in a world fail with the same error, or write the same bytes to the same place. -/
structure SavedAlike (w : World) (x y : Except Error Receipt × Target × World) : Prop where
  receipt : Agree (Receipt.Same w) x.1 y.1
  target : x.2.1 = y.2.1
  files : x.2.2.files = y.2.2.files

/-- A save that refuses changes nothing. -/
theorem savedAlike_error {w : World} (e : Error) (target : Target) :
    SavedAlike w (.error e, target, w) (.error e, target, w) :=
  ⟨.error e, rfl, rfl⟩

/-- A saver that writes last does the same with twins, and hands over the same bytes. -/
theorem perform_writesLast {saver : Saver} (hlast : saver.WritesLast)
    (htwins : Image.Twins R m n a b) (hworlds : World.Parallel R) (job : SaveJob)
    (target : Target) {w v : World} (hR : R w v) :
    (perform a (saver.save job) (target, w)).1 = (perform b (saver.save job) (target, v)).1 ∧
      (perform a (saver.save job) (target, w)).2.1 = (perform b (saver.save job) (target, v)).2.1 ∧
      (perform a (saver.save job) (target, w)).2.2.files =
        (perform b (saver.save job) (target, v)).2.2.files := by
  obtain ⟨draft, hsilent, hsave⟩ := hlast job
  rw [hsave, perform_bind, perform_bind]
  obtain ⟨hanswer, hR⟩ := perform_same htwins hworlds hsilent target hR
  have hleft := target_of_silent hsilent a (target, w)
  have hright := target_of_silent hsilent b (target, v)
  generalize perform a draft (target, w) = left at hanswer hR hleft
  generalize perform b draft (target, v) = right at hanswer hR hright
  obtain ⟨answer, place, w⟩ := left
  obtain ⟨answer', place', v⟩ := right
  obtain rfl : answer = answer' := hanswer
  obtain rfl : place = target := hleft
  obtain rfl : place' = place := hright
  have hfiles : w.files = v.files := hworlds.files hR
  cases answer with
  | error e => exact ⟨rfl, rfl, hfiles⟩
  | ok bytes =>
    dsimp only [next]
    rw [perform_put, perform_put, hfiles]
    cases place'.write bytes v.files with
    | error e => exact ⟨rfl, rfl, hfiles⟩
    | ok written => exact ⟨rfl, rfl, rfl⟩

/-- **Images that are made ready alike are saved alike.** -/
theorem savedAlike_of_ready {entry : SaverEntry} {options : Options} {config : SaveConfig}
    {colour : ColourEngine LoadId} {target : Target} {w : World}
    (hlast : entry.saver.WritesLast)
    (hready : ∀ settings rest, SaveSettings.take options config = .ok (settings, rest) →
      Agree (Interchangeable R) (ready entry.descriptor settings colour w.files a)
        (ready entry.descriptor settings colour w.files b))
    (hworlds : World.Parallel R) (hR : R w w) :
    SavedAlike w (run entry a target options config colour w)
      (run entry b target options config colour w) := by
  simp only [run]
  cases htake : SaveSettings.take options config with
  | error e => exact savedAlike_error e target
  | ok taken =>
    obtain ⟨settings, rest⟩ := taken
    have hboth := hready settings rest htake
    dsimp only
    by_cases hkind : target.kind ≠ entry.descriptor.io
    · rw [if_pos hkind, if_pos hkind]
      exact savedAlike_error _ target
    · rw [if_neg hkind, if_neg hkind]
      generalize ready entry.descriptor settings colour w.files a = x at hboth ⊢
      generalize ready entry.descriptor settings colour w.files b = y at hboth ⊢
      cases hboth with
      | error e => exact savedAlike_error e target
      | @ok x y hxy =>
        obtain ⟨x, warnings⟩ := x
        obtain ⟨y, _⟩ := y
        obtain ⟨htwins, rfl⟩ := hxy
        have hjob : job entry.descriptor.name x rest = job entry.descriptor.name y rest := by
          rw [job, job, htwins.header, htwins.left]
        obtain ⟨hresult, htarget, hfiles⟩ := perform_writesLast hlast htwins hworlds
          (job entry.descriptor.name y rest) target (hworlds.warn hR warnings)
        dsimp only
        rw [hjob]
        refine ⟨?_, htarget, hfiles⟩
        dsimp only
        rw [hresult]
        cases (perform y (entry.saver.save (job entry.descriptor.name y rest))
            (target, w.warnAll warnings)).1 with
        | error e => exact .error e
        | ok _ =>
          exact .ok ⟨rfl, rfl, htwins.header, htwins.left, htwins.alike hworlds hR⟩

/-- **Dropped metadata leaks nothing.**  Take two images of one shape that show the same in the
world in which they are saved, from whatever loads, and which agree in every field without a category
and in every field whose category the save keeps. Made ready they have the same header, the same
metadata and the same pixels, or fail with the same error. If the saver writes last, as that of
containers does, the save fails with the same error or writes the same bytes to the same place. -/
theorem run_agree (entry : SaverEntry) (options : Options) (config : SaveConfig) (target : Target)
    {a b : Image LoadId} {w : World} (hheader : a.header = b.header)
    (hpixels : World.Alike a b w w)
    (hmetadata : ∀ settings rest, SaveSettings.take options config = .ok (settings, rest) →
      ∀ name, (∀ c, Category.ofField name = some c → settings.keep.keeps c = true) →
        a.metadata.get? name = b.metadata.get? name) :
    (∀ settings rest, SaveSettings.take options config = .ok (settings, rest) → ∀ files,
      Agree (fun x y => x.1.header = y.1.header ∧ x.1.metadata = y.1.metadata ∧
          World.Alike x.1 y.1 w w ∧ x.2 = y.2)
        (ready entry.descriptor settings Colour.basic files a)
        (ready entry.descriptor settings Colour.basic files b)) ∧
    (entry.saver = Native.saver ∨ entry.saver.WritesLast →
      SavedAlike w (run entry a target options config Colour.basic w)
        (run entry b target options config Colour.basic w)) := by
  have htwins : Image.Twins (World.Alike a b) a.metadata b.metadata a b :=
    ⟨hheader, rfl, rfl, World.Alike.fetch⟩
  have hworlds := World.parallel_alike a b
  have hready : ∀ settings rest, SaveSettings.take options config = .ok (settings, rest) →
      ∀ files, Agree (Interchangeable (World.Alike a b))
        (ready entry.descriptor settings Colour.basic files a)
        (ready entry.descriptor settings Colour.basic files b) := by
    intro settings rest htake files
    refine ready_agree Colour.blind_basic entry.descriptor settings files htwins
      fun name hname => ?_
    exact hmetadata settings rest htake name (Keep.keepsField_iff.1 hname)
  refine ⟨fun settings rest htake files => ?_, fun hlast => ?_⟩
  · refine (hready settings rest htake files).mono fun x y hxy => ?_
    exact ⟨hxy.twins.header, hxy.twins.left, hxy.twins.alike hworlds hpixels, hxy.warnings⟩
  · have hlast : entry.saver.WritesLast :=
      hlast.elim (fun hnative => hnative ▸ Native.writesLast_saver) id
    exact savedAlike_of_ready hlast
      (fun settings rest htake => hready settings rest htake w.files) hworlds hpixels

/-- Two loads of containers with other XMP and with a tag field that only one of them has, and with
the same pixel. Saved without metadata they are the same bytes. -/
theorem run_agree_stripped :
    let h : Header :=
      { width := 1, height := 1, bands := 1, format := .uchar, interpretation := .bw }
    let shared : Metadata := Fields.empty.insert Metadata.orientation (.int 6)
    let tagged : Metadata :=
      (shared.insert Metadata.xmp (.blob [1])).insert "exif-ifd0-Make" (.text "A")
    let plain : Metadata := shared.insert Metadata.xmp (.blob [2, 3])
    let opened (number : Nat) (metadata : Metadata) : Operation :=
      { entry := { descriptor := (LoadFormat.native .buffer).descriptor, loader := Native.loader, number }
        input := .buffer (Native.encode .machine h metadata [7])
        options := {}, settings := {}, flags := { isPartial := true }, header := h
        metadata := Operation.published Native.bufferLoad .random metadata
        invalid := false, phase := .headerRead }
    let w : World := { operations := [opened 0 tagged, opened 1 plain], cache := { capacity := 0 } }
    let a := (opened 0 tagged).image 0 { origin := 0 }
    let b := (opened 1 plain).image 1 { origin := 1 }
    let entry : SaverEntry :=
      { descriptor := Native.describe (.saver "nimg" .buffer), saver := Native.saver }
    let saved (image : Image LoadId) :=
      run entry image (.buffer []) (Fields.empty.insert "strip" "true") {} Colour.basic w
    (saved a).1.isOk = true ∧ (saved a).2.1 = (saved b).2.1 ∧ a.metadata ≠ b.metadata := by
  intro h shared tagged plain opened w a b entry saved
  have hreads (number : Nat) (metadata : Metadata) (hthere : w.operation? number =
      some (opened number metadata)) (hwritten : Native.written .machine metadata = metadata)
      (hsize : metadata.size < UInt32.size)
      (hshort : (Native.encode .machine h metadata [7]).length < 0x8000000000000000) :
      w.Reads number (Native.encode .machine h metadata [7])
        { header := h, order := .machine, metadata
          pixels := UInt64.ofNat (Native.pixelStart .machine h) } := by
    have hs : Native.Storable h := by constructor <;> decide
    have hlength : [7].length = h.imageSize.toNat := by decide
    have hlayout := Native.readLayout_encode_ok hs hlength hsize hshort .memory
    rw [hwritten] at hlayout
    exact ⟨_, hthere, hlayout, rfl, rfl, rfl, rfl, rfl, .inl rfl⟩
  have halike : World.Alike a b w w := by
    have hfiles : w.LeavesFiles := by
      intro op hop
      obtain rfl | rfl : op = opened 0 tagged ∨ op = opened 1 plain := by simpa [w] using hop
      · exact Native.leavesFiles_loader
      · exact Native.leavesFiles_loader
    exact Native.alike_of_reads (hreads 0 tagged rfl (by decide) (by decide) (by decide +kernel))
      (hreads 1 plain rfl (by decide) (by decide) (by decide +kernel)) rfl (by decide +kernel)
      hfiles { origin := 0 } { origin := 1 }
  have htake : (SaveSettings.take (Fields.empty.insert "strip" "true") {}).map
      (fun s => s.1.keep) = .ok Keep.none := rfl
  have hmetadata : ∀ settings rest,
      SaveSettings.take (Fields.empty.insert "strip" "true") {} = .ok (settings, rest) →
      ∀ name, (∀ c, Category.ofField name = some c → settings.keep.keeps c = true) →
        a.metadata.get? name = b.metadata.get? name := by
    intro settings rest htaken name hname
    have hfree : Category.ofField name = none := by
      rw [htaken] at htake
      have hkeep : settings.keep = Keep.none := Except.ok.inj htake
      cases hcategory : Category.ofField name with
      | none => rfl
      | some c =>
        have hkept := hname c hcategory
        rw [hkeep] at hkept
        cases c <;> cases hkept
    have htag : name ≠ "exif-ifd0-Make" := by
      rintro rfl
      exact absurd hfree (by decide)
    have hxmp : name ≠ Metadata.xmp := by
      rintro rfl
      exact absurd hfree (by decide)
    show (Operation.published Native.bufferLoad .random tagged).get? name =
      (Operation.published Native.bufferLoad .random plain).get? name
    simp only [Operation.published, if_true, tagged, plain, Fields.get?_insert, if_neg htag,
      if_neg hxmp]
  have hheader : a.header = b.header := rfl
  have hsaved := (run_agree entry (Fields.empty.insert "strip" "true") {} (.buffer []) hheader
    halike hmetadata).2 (.inl rfl)
  exact ⟨by decide +kernel, hsaved.target, by decide +kernel⟩

end Save

end Raster
