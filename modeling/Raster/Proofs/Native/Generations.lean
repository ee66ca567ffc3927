/-
# One generation is enough

A container that is loaded and saved again need not stay the same: its byte order
becomes the machine's, the load adds who it was, the save rebuilds the EXIF block and
drops a profile that does not fit. A second time none of this changes anything:

| part | after one generation |
| --- | --- |
| header, pixels | the same, in machine order |
| metadata | `Metadata.resaved`, which changes no more (`resaved_resaved`) |
| the rest of the container | follows from these (`Layout.resaved_resaved`) |

All that is read from a container has a place in one (`hasPlace_of_readLayout`), so
what a save leaves out is only the mark of sequential reads.
-/
import Raster.Load.Operation
import Raster.Proofs.Native.AnyBytes
import Raster.Proofs.Retain
import Raster.Proofs.Text.Utf8

namespace Raster

/-! ### What is read has a place -/

namespace Native

/-- A field has a place in a container: neither its name nor its value is too long. -/
def HasPlace (name : String) (value : MetaValue) : Prop :=
  name.utf8ByteSize < UInt16.size ∧ valueSize value < UInt32.size

/-- The test of a writer is whether a field has a place, in both orders. -/
theorem fits_iff {order : ByteOrder} {name : String} {value : MetaValue} :
    fits order name value = true ↔ HasPlace name value := by
  rw [fits, Bool.and_eq_true, decide_eq_true_eq, decide_eq_true_eq, length_valueBytes, HasPlace]

section

variable {order : ByteOrder} {bytes rest : Bytes} {name : String} {value : MetaValue}
  {metadata found : Metadata}

/-- A text that was read has the length that was said before it. -/
theorem utf8ByteSize_of_readText {n : Nat} (h : readText n bytes = .ok (name, rest)) :
    name.utf8ByteSize = n := by
  rw [readText] at h
  obtain ⟨⟨piece, rest'⟩, hpiece, h⟩ := bind_eq_ok.1 h
  obtain ⟨hle, hout⟩ := readBytes_eq_ok.1 hpiece
  obtain ⟨rfl, -⟩ := Prod.mk.inj hout
  dsimp only at h
  split at h
  · rename_i s hdecoded
    obtain ⟨rfl, -⟩ := Prod.mk.inj (Except.ok.inj h)
    rw [← Bytes.length_ofText, Utf8.ofText_of_decode hdecoded, List.length_take]
    omega
  · cases h

/-- A value is as long as its length says. -/
theorem valueSize_of_readValue {kind : UInt8} {n : Nat}
    (h : readValue order name kind n bytes = .ok (value, rest)) : valueSize value = n := by
  rw [readValue] at h
  split at h
  · rename_i hint
    obtain ⟨_, -, hv⟩ := map_eq_ok.1 h
    obtain ⟨rfl, -⟩ := Prod.mk.inj hv
    exact hint.2.symm
  · split at h
    · rename_i hdouble
      obtain ⟨_, -, hv⟩ := map_eq_ok.1 h
      obtain ⟨rfl, -⟩ := Prod.mk.inj hv
      exact hdouble.2.symm
    · split at h
      · obtain ⟨_, hread, hv⟩ := map_eq_ok.1 h
        obtain ⟨rfl, -⟩ := Prod.mk.inj hv
        exact utf8ByteSize_of_readText hread
      · split at h
        · obtain ⟨⟨piece, rest'⟩, hread, hv⟩ := map_eq_ok.1 h
          obtain ⟨rfl, -⟩ := Prod.mk.inj hv
          obtain ⟨hle, hout⟩ := readBytes_eq_ok.1 hread
          obtain ⟨rfl, -⟩ := Prod.mk.inj hout
          rw [valueSize, List.length_take]
          omega
        · cases h

/-- **What was read from a container has a place in one.** -/
theorem hasPlace_of_readField (h : readField order bytes = .ok ((name, value), rest)) :
    HasPlace name value := by
  simp only [readField, bind_eq_ok] at h
  obtain ⟨⟨nameLength, _⟩, -, ⟨_, _⟩, hname, ⟨_, _⟩, -, ⟨length, _⟩, -, ⟨_, _⟩, hvalue, h⟩ := h
  obtain ⟨hfield, -⟩ := Prod.mk.inj (Except.ok.inj h)
  obtain ⟨rfl, rfl⟩ := Prod.mk.inj hfield
  refine ⟨?_, ?_⟩
  · rw [utf8ByteSize_of_readText hname]
    exact nameLength.toNat_lt
  · rw [valueSize_of_readValue hvalue]
    exact length.toNat_lt

/-- Every field of a metadata has a place in a container. -/
def AllHavePlace (metadata : Metadata) : Prop :=
  ∀ name value, metadata.get? name = some value → HasPlace name value

/-- No field, no place needed. -/
theorem allHavePlace_empty : AllHavePlace {} := by
  intro name value hfound
  have hnone : none = some value := hfound
  cases hnone

/-- A field with a place can be added. -/
theorem AllHavePlace.insert (h : AllHavePlace metadata) (hplace : HasPlace name value) :
    AllHavePlace (metadata.insert name value) := by
  intro other found hfound
  rw [Fields.get?_insert] at hfound
  split at hfound
  · rename_i hother
    rw [hother, ← Option.some.inj hfound]
    exact hplace
  · exact h other found hfound

/-- So all fields of a container have places. -/
theorem AllHavePlace.readFields {n : Nat} (hmetadata : AllHavePlace metadata)
    (h : Native.readFields order n metadata bytes = .ok found) : AllHavePlace found := by
  induction n generalizing metadata bytes with
  | zero =>
    obtain rfl := Except.ok.inj h
    exact hmetadata
  | succ n ih =>
    rw [Native.readFields] at h
    split at h
    · cases h
    · rename_i name value rest hfield
      exact ih (hmetadata.insert (hasPlace_of_readField hfield)) h

/-- **What is read from a container has a place in one.** -/
theorem hasPlace_of_readLayout {medium : Medium} {layout : Layout}
    (h : readLayout medium bytes = .ok layout) : AllHavePlace layout.metadata := by
  obtain ⟨_, _, _, _, -, -, -, -, -, -, hmetadata⟩ := readLayout_eq_ok.1 h
  obtain ⟨⟨count, rest⟩, -, hfields⟩ := bind_eq_ok.1 hmetadata
  exact allHavePlace_empty.readFields hfields

/-- Where every field has a place, all that describes the image is written. -/
theorem written_of_allHavePlace (order : ByteOrder) (h : AllHavePlace (storable metadata)) :
    written order metadata = storable metadata := by
  refine Fields.ext_get? fun name => ?_
  rw [written, Fields.get?_filter]
  cases hfound : (storable metadata).get? name with
  | none => rfl
  | some value => exact Option.filter_some_pos (fits_iff.2 (h name value hfound))

end

end Native

/-! ### Metadata -/

/-- A block is made from nothing that says how the image was loaded. -/
theorem Exif.IsSource.ne {name : String} (h : IsSource name) :
    name ≠ Metadata.loader ∧ name ≠ Metadata.sequential := by
  refine ⟨?_, ?_⟩ <;> rintro rfl <;> revert h <;> unfold IsSource <;> decide

namespace Metadata

variable {metadata : Metadata} {header : Header} {keep : Keep} {name : String}

/-- Only the mark of sequential reads is not stored. -/
theorem get?_storable (other : String) : (Native.storable metadata).get? other =
    if other = sequential then none else metadata.get? other := by
  rw [Native.storable, Fields.get?_filter]
  split
  · rename_i hmark
    rw [hmark]
    cases metadata.get? sequential <;> rfl
  · rename_i hmark
    cases metadata.get? other with
    | none => rfl
    | some value => exact Option.filter_some_pos (bne_iff_ne.2 hmark)

/-- Once it is gone, nothing more goes. -/
theorem storable_storable :
    Native.storable (Native.storable metadata) = Native.storable metadata := by
  refine Fields.ext_get? fun other => ?_
  rw [get?_storable, get?_storable]
  split <;> rfl

/-- **The mark of sequential reads makes no difference to what else survives a save.** -/
theorem storable_retain : Native.storable (metadata.retain header keep).1 =
    ((Native.storable metadata).retain header keep).1 := by
  have hblob : (Native.storable metadata).get? Metadata.exif = metadata.get? Metadata.exif := by
    rw [get?_storable, if_neg (by decide)]
  have hsource : ∀ other, Exif.IsSource other →
      (Native.storable metadata).get? other = metadata.get? other := by
    intro other hother
    rw [get?_storable, if_neg hother.ne.2]
  refine Fields.ext_get? fun other => ?_
  by_cases hexif : other = Metadata.exif
  · rw [hexif, get?_storable, if_neg (by decide), get?_retain_exif, get?_retain_exif,
      (Exif.update_exif_congr hblob hsource header).1]
  · by_cases hicc : other = Metadata.icc
    · rw [hicc, get?_storable, if_neg (by decide)]
      refine Option.ext fun value => ?_
      rw [get?_retain_icc, get?_retain_icc, get?_storable, if_neg (by decide)]
    · rw [get?_storable, get?_retain hexif hicc, get?_retain hexif hicc, get?_storable]
      split <;> split <;> rfl

/-- What is stored of a metadata after a load by an operation and a save. -/
def resaved (metadata : Metadata) (name : String) (access : Access) (header : Header)
    (keep : Keep) : Metadata :=
  Native.storable ((Operation.published name access metadata).retain header keep).1

/-- A load publishes its name beside what is stored. -/
theorem storable_published (access : Access) :
    Native.storable (Operation.published name access metadata) =
      (Native.storable metadata).insert loader (.text name) := by
  refine Fields.ext_get? fun other => ?_
  have hloader : loader ≠ sequential := by decide
  rw [get?_storable, Fields.get?_insert, get?_storable, Operation.published]
  by_cases hmark : other = sequential
  · rw [if_pos hmark, if_pos hmark, if_neg (hmark ▸ hloader.symm)]
  · rw [if_neg hmark, if_neg hmark]
    split
    · rw [Fields.get?_insert]
    · rw [Fields.get?_insert, if_neg hmark, Fields.get?_insert]

/-- This name survives the save, which keeps what has no category. -/
theorem get?_resaved_loader (access : Access) :
    (metadata.resaved name access header keep).get? loader = some (.text name) := by
  have hkept : keep.keepsField loader = true := Keep.keepsField_iff.2 fun c hc => nomatch hc
  have hpublished : (Native.storable (Operation.published name access metadata)).get? loader
      = some (.text name) := by
    rw [storable_published, Fields.get?_insert, if_pos rfl]
  rw [get?_storable, if_neg (by decide)] at hpublished
  rw [resaved, get?_storable, if_neg (by decide), get?_retain (by decide) (by decide),
    if_pos hkept, hpublished]

/-- **One generation is enough** for the metadata, whatever the second load is told about how
pixels will be read. -/
theorem resaved_resaved (access again : Access)
    (hfits : keep.exif = true → ∀ exif,
      Exif.toRebuild (Operation.published name access metadata) = .ok (some exif) →
        (Exif.rebuild (Operation.published name access metadata) header exif).Fits) :
    (metadata.resaved name access header keep).resaved name again header keep
      = metadata.resaved name access header keep := by
  let loaded := Operation.published name access metadata
  have hstorable : Native.storable (metadata.resaved name access header keep)
      = metadata.resaved name access header keep := storable_storable
  calc (metadata.resaved name access header keep).resaved name again header keep
      = ((Native.storable (Operation.published name again
          (metadata.resaved name access header keep))).retain header keep).1 := storable_retain
    _ = ((metadata.resaved name access header keep).retain header keep).1 := by
        rw [storable_published, hstorable, Fields.insert_eq_self (get?_resaved_loader access)]
    _ = Native.storable ((loaded.retain header keep).1.retain header keep).1 :=
        storable_retain.symm
    _ = metadata.resaved name access header keep := by rw [retain_retain hfits, resaved]

end Metadata

/-! ### Containers -/

namespace Fields

variable {α : Type}

/-- Leaving fields out makes no more of them. -/
theorem size_filter_le (fields : Fields α) (keep : String → α → Bool) :
    (fields.filter keep).size ≤ fields.size := List.length_filter_le ..

/-- Setting a field adds one entry at most. -/
theorem length_insertEntry_le (name : String) (value : α) (entries : List (String × α)) :
    (insertEntry name value entries).length ≤ entries.length + 1 := by
  induction entries with
  | nil => exact Nat.le_refl _
  | cons e rest ih =>
    rw [insertEntry]
    split
    · exact Nat.le_refl _
    · split
      · exact Nat.le_succ _
      · exact Nat.succ_le_succ ih

/-- So the count of fields grows by one at most. -/
theorem size_insert_le (fields : Fields α) (name : String) (value : α) :
    (fields.insert name value).size ≤ fields.size + 1 := length_insertEntry_le ..

end Fields

/-- The block that an image's metadata makes of its own can be written: its directories have
counts of 16 bits, and all of it is short enough for the value of a field. -/
def Exif.HasRoom (metadata : Metadata) (header : Header) : Prop :=
  ∀ exif, toRebuild metadata = .ok (some exif) →
    (∀ s es, (rebuild metadata header exif).directory? s = some es → es.length ≤ 65535) ∧
      (rebuild metadata header exif).toBytes.length < UInt32.size

/-- With room for it, the block that a save makes can be written. -/
theorem Exif.HasRoom.fits {metadata : Metadata} {header : Header} (h : HasRoom metadata header)
    {exif : Exif} (hexif : toRebuild metadata = .ok (some exif)) :
    (rebuild metadata header exif).Fits := by
  obtain ⟨hcounts, hlength⟩ := h exif hexif
  rw [toBytes, List.length_append] at hlength
  exact ⟨hcounts, by omega⟩

/-- Who loaded an image, and how, does not go into its block. -/
theorem Exif.HasRoom.published {metadata : Metadata} {header : Header}
    (h : HasRoom metadata header) (name : String) (access : Access) :
    HasRoom (Operation.published name access metadata) header := by
  have hother : ∀ other, other ≠ Metadata.loader → other ≠ Metadata.sequential →
      (Operation.published name access metadata).get? other = metadata.get? other := by
    intro other hloader hmark
    rw [Operation.published]
    split
    · rw [Fields.get?_insert, if_neg hloader]
    · rw [Fields.get?_insert, if_neg hmark, Fields.get?_insert, if_neg hloader]
  have hsource : ∀ other, IsSource other →
      (Operation.published name access metadata).get? other = metadata.get? other := by
    intro other hsource
    exact hother other hsource.ne.1 hsource.ne.2
  have hsame := toRebuild_congr (hother _ (by decide) (by decide))
    fun other hname => hsource other (.inl hname)
  intro exif hexif
  rw [rebuild_congr hsource]
  exact h exif (hsame ▸ hexif)

/-- The block of the annotated image has room. -/
theorem Exif.hasRoom_annotated : HasRoom annotatedMetadata annotatedHeader := by
  have hblob : annotatedMetadata.getBlob Metadata.exif = some annotated := by rfl
  intro exif hexif
  rw [toRebuild_of_blob hblob parse_annotated] at hexif
  obtain rfl := Option.some.inj (Except.ok.inj hexif)
  have hmarker : marker.length = 6 := by decide
  have hlength := length_toTiff_annotated
  refine ⟨fits_annotated.counts, ?_⟩
  rw [toBytes, List.length_append, UInt32.size]
  omega

namespace Native

variable {metadata : Metadata} {header : Header} {keep : Keep}

/-- A save adds the EXIF block at most. -/
theorem size_retain_le : (metadata.retain header keep).1.size ≤ metadata.size + 1 := by
  have hrefresh : (metadata.refreshExif header keep).1.size ≤ metadata.size + 1 := by
    rw [Metadata.refreshExif]
    split
    · rw [Exif.update]
      split
      · exact Nat.le_succ _
      · exact Nat.le_succ _
      · exact Fields.size_insert_le ..
    · exact Nat.le_succ _
  have hstrip : ((metadata.refreshExif header keep).1.strip keep).size ≤ metadata.size + 1 :=
    Nat.le_trans (Fields.size_filter_le ..) hrefresh
  rw [Metadata.retain_fst, Metadata.dropUnfitProfile]
  split
  · split
    · split
      · exact hstrip
      · exact Nat.le_trans (Fields.size_filter_le ..) hstrip
    · exact hstrip
  · exact hstrip

/-- What survives a save has a place if all that went into it did. -/
theorem AllHavePlace.retain (h : AllHavePlace metadata)
    (hroom : keep.exif = true → Exif.HasRoom metadata header) :
    AllHavePlace (metadata.retain header keep).1 := by
  intro name value hfound
  by_cases hexif : name = Metadata.exif
  · subst hexif
    rw [Metadata.get?_retain_exif] at hfound
    split at hfound
    · rename_i hkeep
      cases hrebuild : Exif.toRebuild metadata with
      | error e =>
        rw [Exif.update, hrebuild] at hfound
        exact h _ value hfound
      | ok exif? =>
        cases exif? with
        | none =>
          rw [Exif.update, hrebuild] at hfound
          exact h _ value hfound
        | some exif =>
          rw [Exif.update_of_toRebuild header hrebuild, Fields.get?_insert, if_pos rfl] at hfound
          obtain rfl := Option.some.inj hfound
          exact ⟨by decide, (hroom hkeep exif hrebuild).2⟩
    · cases hfound
  · by_cases hicc : name = Metadata.icc
    · subst hicc
      exact h _ value (Metadata.get?_retain_icc.1 hfound).2.1
    · rw [Metadata.get?_retain hexif hicc] at hfound
      split at hfound
      · exact h name value hfound
      · cases hfound

/-- A loader with a short name publishes fields with places. -/
theorem AllHavePlace.published {name : String} (h : AllHavePlace metadata)
    (hname : name.utf8ByteSize < UInt32.size) (access : Access) :
    AllHavePlace (Operation.published name access metadata) := by
  have hloader : AllHavePlace (metadata.insert Metadata.loader (.text name)) :=
    h.insert ⟨by decide, hname⟩
  rw [Operation.published]
  split
  · exact hloader
  · exact hloader.insert ⟨by decide, by decide⟩

/-- Leaving a field out leaves the others their places. -/
theorem AllHavePlace.storable (h : AllHavePlace metadata) : AllHavePlace (storable metadata) := by
  intro name value hfound
  rw [Metadata.get?_storable] at hfound
  split at hfound
  · cases hfound
  · exact h name value hfound

/-- A container says no more of a metadata than what is written of it. -/
theorem encode_congr {other : Metadata} (h : written .machine other = written .machine metadata)
    (pixels : Bytes) :
    encode .machine header other pixels = encode .machine header metadata pixels := by
  rw [encode, encode, metadataBytes, metadataBytes, h]

/-- The metadata that a save after a load by an operation hands to the saver. -/
def Layout.surviving (layout : Layout) (name : String) (access : Access) (keep : Keep) : Metadata :=
  ((Operation.published name access layout.metadata).retain layout.header keep).1

/-- The container that a load by an operation and a save make of a container. -/
def Layout.resaved (layout : Layout) (bytes : Bytes) (name : String) (access : Access)
    (keep : Keep) : Bytes :=
  encode .machine layout.header (layout.surviving name access keep) (layout.body bytes)

/-- **One generation is enough.** The container that a load and a save make of one can be read
again, and the same load and save make the same container of it. -/
theorem Layout.resaved_resaved {layout : Layout} {bytes : Bytes} {name : String} {access : Access}
    (hlayout : readLayout .memory bytes = .ok layout)
    (hshort : bytes.length < 0x8000000000000000) (hname : name.utf8ByteSize < UInt32.size)
    (hfields : (Operation.published name access layout.metadata).size + 1 < UInt32.size)
    (hroom : keep.exif = true →
      Exif.HasRoom (Operation.published name access layout.metadata) layout.header) :
    ∃ again, readLayout .memory (layout.resaved bytes name access keep) = .ok again ∧
      ∀ access', again.resaved (layout.resaved bytes name access keep) name access' keep
        = layout.resaved bytes name access keep := by
  have hs := storable_of_readLayout hlayout
  obtain ⟨n, hn⟩ := sized_of_readLayout hlayout
  have hoffset := pixels_of_readLayout hlayout
  have hend := pixels_end_le hlayout
  have hbody : (layout.body bytes).length = layout.header.imageBytes := length_body (by omega)
  have hpixels : (layout.body bytes).length = layout.header.imageSize.toNat := by
    rw [hbody, Header.imageSize_eq hn, (Header.checkedImageSize_eq_some.1 hn).2]
  have hstart := pixelStart_lt .machine layout.header
  have hplace : AllHavePlace (layout.surviving name access keep) :=
    ((hasPlace_of_readLayout hlayout).published hname access).retain hroom
  have hwritten : written .machine (layout.surviving name access keep)
      = layout.metadata.resaved name access layout.header keep :=
    written_of_allHavePlace .machine hplace.storable
  have hread : readLayout .memory (layout.resaved bytes name access keep) = .ok
      { header := layout.header, order := .machine
        pixels := UInt64.ofNat (pixelStart .machine layout.header)
        metadata := layout.metadata.resaved name access layout.header keep } := by
    rw [← hwritten]
    exact readLayout_encode_of_reaches hs hpixels (Nat.lt_of_le_of_lt size_retain_le hfields)
      (by rw [UInt64.size]; omega) fun _ _ => rfl
  refine ⟨_, hread, fun access' => ?_⟩
  rw [Layout.resaved, Layout.resaved, body_encode _ _ hbody]
  refine encode_congr ?_ _
  -- what is written is what is stored, and that has settled
  have hsettled := Metadata.resaved_resaved access access' fun hkeep exif hexif =>
    (hroom hkeep).fits hexif
  exact congrArg (fun m => Fields.filter m (fits .machine)) hsettled

end Native

end Raster
