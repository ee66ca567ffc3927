/-
# The round trip of the native container

| in the image | read from its container |
| --- | --- |
| header | the same, where it is `Storable`; else the container is refused |
| metadata | without `vips-sequential` and without what has no place (`written_eq`) |
| pixels | the same, from a file, a buffer or a stream and in either byte order |

The encoder and the reader admit images by rules of their own; `readLayout_encode`
says that they agree.
-/
import Raster.Proofs.Native.Fields
import Raster.Proofs.Native.Pixels

namespace Raster

namespace Native

variable {order : ByteOrder} {h : Header} {metadata : Metadata} {pixels : Bytes}

/-- Bytes in front of the first pixel. -/
def pixelStart (order : ByteOrder) (h : Header) : Nat := 6 + (headerBytes order h).length

/-- Headers differ in length by the interpretation's name only. -/
theorem length_headerBytes (order : ByteOrder) (h : Header) :
    (headerBytes order h).length = 31 + (Bytes.ofText h.interpretation.name).length := by
  simp only [headerBytes, List.length_append, List.length_cons, List.length_nil,
    ByteOrder.length_put32, ByteOrder.length_put64]
  omega

/-- So pixels start early, and their offset is far from any limit. -/
theorem pixelStart_lt (order : ByteOrder) (h : Header) : pixelStart order h < 293 := by
  have hname : _ < 256 := h.interpretation.length_name_lt
  rw [pixelStart, length_headerBytes]
  omega

/-- Bytes that a value takes. -/
def valueSize : MetaValue → Nat
  | .int _ | .double _ => 8
  | .text v => v.utf8ByteSize
  | .blob v => v.length

/-- A value takes what its size says. -/
theorem length_valueBytes (order : ByteOrder) (value : MetaValue) :
    (valueBytes order value).length = valueSize value := by
  cases value <;> simp [valueBytes, valueSize, Bytes.length_ofText]

/-- Whether a field is stored: not the mark of sequential reads, and no name or value that is too
long. -/
def isStored (name : String) (value : MetaValue) : Bool :=
  name != Metadata.sequential && name.utf8ByteSize ≤ 65535 && valueSize value ≤ 4294967295

/-- What is written of a metadata, in either byte order. -/
theorem written_eq (order : ByteOrder) (metadata : Metadata) :
    written order metadata = metadata.filter isStored := by
  refine Fields.ext_get? fun name => ?_
  have hfits : ∀ v, fits order name v
      = (decide (name.utf8ByteSize ≤ 65535) && decide (valueSize v ≤ 4294967295)) := by
    intro v
    simp only [fits, length_valueBytes, UInt16.size, UInt32.size, Nat.lt_succ_iff]
  rw [written, storable, Fields.get?_filter, Fields.get?_filter, Fields.get?_filter]
  cases metadata.get? name with
  | none => rfl
  | some v =>
    by_cases hn : name != Metadata.sequential <;> simp [Option.filter, isStored, hfits, hn]

/-! ### The container as header, pixels and metadata -/

/-- A container is its start, its header, its pixels and its metadata. -/
theorem encode_eq (order : ByteOrder) (h : Header) (metadata : Metadata) (pixels : Bytes) :
    encode order h metadata pixels = (magic ++ [version, orderTag order]) ++
      (headerBytes order h ++ (reorder h.format order pixels ++ metadataBytes order metadata)) := by
  simp only [encode, List.append_assoc]

/-- And as long as these are. -/
theorem length_encode (order : ByteOrder) (h : Header) (metadata : Metadata) (pixels : Bytes) :
    (encode order h metadata pixels).length
      = pixelStart order h + pixels.length + (metadataBytes order metadata).length := by
  have hmagic : magic.length = 4 := by decide
  simp only [encode_eq, List.length_append, hmagic, List.length_cons, List.length_nil,
    length_reorder, pixelStart]
  omega

/-- Behind the offset of the pixels come pixels and metadata. -/
theorem drop_pixelStart (order : ByteOrder) (h : Header) (metadata : Metadata) (pixels : Bytes) :
    (encode order h metadata pixels).drop (pixelStart order h)
      = reorder h.format order pixels ++ metadataBytes order metadata := by
  have hmagic : magic.length = 4 := by decide
  rw [encode_eq, ← List.append_assoc, List.drop_left']
  simp only [List.length_append, hmagic, List.length_cons, List.length_nil, pixelStart]

/-- And behind the pixels the metadata. -/
theorem drop_pixelEnd (order : ByteOrder) (h : Header) (metadata : Metadata) (pixels : Bytes) :
    (encode order h metadata pixels).drop (pixelStart order h + pixels.length)
      = metadataBytes order metadata := by
  rw [← List.drop_drop, drop_pixelStart, List.drop_left' (length_reorder ..)]

/-- The start is read back, with the order that all the rest is in. -/
theorem readStart_append (order : ByteOrder) (rest : Bytes) :
    readStart ((magic ++ [version, orderTag order]) ++ rest) = .ok (order, rest) := by
  rw [readStart, readBytes_append (by cases order <;> decide)]
  cases order <;> rfl

/-- A header that is not storable makes the whole container unreadable. -/
theorem readLayout_encode_error (hs : ¬Storable h) (medium : Medium) (layout : Layout) :
    readLayout medium (encode order h metadata pixels) ≠ .ok layout := by
  rw [readLayout, encode_eq, readStart_append]
  simp only [bind, Except.bind, readRawHeader_headerBytes]
  cases hcheck : (RawHeader.of h).check with
  | error fault => simp
  | ok found => exact absurd (check_of_eq_ok.1 hcheck).1 hs

/-- **The layout of a written container,** in any medium that reaches the end of its pixels. -/
theorem readLayout_encode_of_reaches (hs : Storable h)
    (hpixels : pixels.length = h.imageSize.toNat)
    (hfields : metadata.size < UInt32.size)
    (hend : pixelStart order h + pixels.length < UInt64.size) {medium : Medium}
    (hreach : ∀ stop : UInt64, stop.toNat = pixelStart order h + pixels.length →
      medium.reaches stop = true) :
    readLayout medium (encode order h metadata pixels) = .ok
      { header := h, order, pixels := UInt64.ofNat (pixelStart order h),
        metadata := written order metadata } := by
  obtain ⟨n, hn⟩ := Option.isSome_iff_exists.1 hs.sized
  have hlen : pixels.length = h.imageBytes := by
    rw [hpixels, Header.imageSize_eq hn, (Header.checkedImageSize_eq_some.1 hn).2]
  have hstart : (UInt64.ofNat (pixelStart order h)).toNat = pixelStart order h :=
    UInt64.toNat_ofNat_of_lt' (by omega)
  obtain ⟨stop, hstop, hstopNat⟩ :=
    exists_pixelEnd (UInt64.ofNat (pixelStart order h)) hn (by omega)
  have hreach : medium.reaches stop = true := hreach stop (by omega)
  have hoffset : (encode order h metadata pixels).length
      - (reorder h.format order pixels ++ metadataBytes order metadata).length
        = pixelStart order h := by
    rw [length_encode, List.length_append, length_reorder]
    omega
  have hrest : (encode order h metadata pixels).drop stop.toNat = metadataBytes order metadata := by
    rw [hstopNat, hstart, ← hlen, drop_pixelEnd]
  have hmeta := readMetadata_metadataBytes metadata hfields order []
  rw [List.append_nil] at hmeta
  rw [readLayout]
  conv => lhs; rw [encode_eq, readStart_append, ← encode_eq]
  simp only [bind, Except.bind, readRawHeader_headerBytes, check_of_eq_ok.2 ⟨hs, rfl⟩, hoffset,
    hstop, hreach, if_true, hrest, hmeta]
  rfl

/-- The layout of a written container, where no offset in it is too large for a file. -/
theorem readLayout_encode_ok (hs : Storable h) (hpixels : pixels.length = h.imageSize.toNat)
    (hfields : metadata.size < UInt32.size)
    (hshort : (encode order h metadata pixels).length < 0x8000000000000000) (medium : Medium) :
    readLayout medium (encode order h metadata pixels) = .ok
      { header := h, order, pixels := UInt64.ofNat (pixelStart order h),
        metadata := written order metadata } := by
  rw [length_encode] at hshort
  refine readLayout_encode_of_reaches hs hpixels hfields (by rw [UInt64.size]; omega) ?_
  intro stop hstop
  cases medium with
  | memory => rfl
  | file => exact decide_eq_true (by omega)

/-- The pixels in a written container are those that were written. -/
theorem body_encode (order : ByteOrder) (metadata : Metadata)
    (hpixels : pixels.length = h.imageBytes) (fields : Metadata) :
    Layout.body
      { header := h, order, pixels := UInt64.ofNat (pixelStart order h), metadata := fields }
      (encode order h metadata pixels) = pixels := by
  have hstart : (UInt64.ofNat (pixelStart order h)).toNat = pixelStart order h :=
    UInt64.toNat_ofNat_of_lt' (by have := pixelStart_lt order h; rw [UInt64.size]; omega)
  rw [Layout.body, hstart, drop_pixelStart, List.take_left' (by rw [length_reorder, hpixels]),
    reorder_reorder]

/-- **What is written is read back.**  A container of an image whose pixels are as many as its
header says is accepted exactly where the header is storable. It then gives the header, every
stored field of the metadata and, through whatever input it is decoded, the pixels. (A byte string
in memory is shorter than `2^63` bytes.) -/
theorem readLayout_encode (order : ByteOrder) (h : Header) (metadata : Metadata) (pixels : Bytes)
    (hpixels : pixels.length = h.imageSize.toNat) (hfields : metadata.size < UInt32.size)
    (hshort : (encode order h metadata pixels).length < 0x8000000000000000) (medium : Medium) :
    ((∃ layout, readLayout medium (encode order h metadata pixels) = .ok layout) ↔ Storable h) ∧
      ∀ layout, readLayout medium (encode order h metadata pixels) = .ok layout →
        layout.header = h ∧ layout.order = order ∧ layout.metadata = metadata.filter isStored ∧
        ∀ context host host',
          context.input.readAll host = (.ok (encode order h metadata pixels), host') →
            ∃ image, (decode context host).result = .ok image ∧ image.header = h ∧
              image.fetchAllFrom (decode context host).host.files = .ok pixels := by
  by_cases hs : Storable h
  · obtain ⟨n, hn⟩ := Option.isSome_iff_exists.1 hs.sized
    have hbytes := (Header.checkedImageSize_eq_some.1 hn).2
    have hlen : pixels.length = h.imageBytes := by rw [hpixels, Header.imageSize_eq hn, hbytes]
    have hok := readLayout_encode_ok hs hpixels hfields hshort
    refine ⟨⟨fun _ => hs, fun _ => ⟨_, hok medium⟩⟩, fun layout hlayout => ?_⟩
    obtain rfl := Except.ok.inj ((hok medium).symm.trans hlayout)
    refine ⟨rfl, rfl, written_eq order metadata, fun context host host' hread => ?_⟩
    have hstart : (UInt64.ofNat (pixelStart order h)).toNat = pixelStart order h :=
      UInt64.toNat_ofNat_of_lt' (by have := pixelStart_lt order h; rw [UInt64.size]; omega)
    have hend : (UInt64.ofNat (pixelStart order h)).toNat + h.imageBytes
        ≤ (encode order h metadata pixels).length := by
      rw [hstart, length_encode, hlen]
      omega
    obtain ⟨image, hdecode, hheader, hfiles, hshows⟩ :=
      exists_decode hread (hok _) hn hend hshort
    rw [body_encode order metadata hlen] at hshows
    exact ⟨image, hdecode, hheader, hfiles ▸ hshows.fetchAllFrom (by rw [hlen, hheader])⟩
  · have hno : ∀ layout, readLayout medium (encode order h metadata pixels) ≠ .ok layout :=
      readLayout_encode_error hs medium
    refine ⟨⟨?_, fun hs' => absurd hs' hs⟩, fun layout hlayout => absurd hlayout (hno layout)⟩
    rintro ⟨layout, hlayout⟩
    exact absurd hlayout (hno layout)

/-- A pixel of two 16-bit bands, written most significant byte first with one field that is stored
and the mark that is not. -/
theorem readLayout_encode_foreign :
    let h : Header :=
      { width := 1, height := 1, bands := 2, format := .short, interpretation := .multiband }
    let metadata : Metadata :=
      (Fields.empty.insert Metadata.sequential (.int 1)).insert Metadata.imageDescription
        (.text "sky")
    ([1, 2, 3, 4] : Bytes).length = h.imageSize.toNat ∧ metadata.size < UInt32.size ∧
      (encode .big h metadata [1, 2, 3, 4]).length < 0x8000000000000000 ∧
      ∃ layout, readLayout .file (encode .big h metadata [1, 2, 3, 4]) = .ok layout ∧
        layout.header = h ∧
        layout.metadata = Fields.empty.insert Metadata.imageDescription (.text "sky") := by
  intro h metadata
  have hpixels : ([1, 2, 3, 4] : Bytes).length = h.imageSize.toNat := by decide
  have hfields : metadata.size < UInt32.size := by decide
  have hshort : (encode .big h metadata [1, 2, 3, 4]).length < 0x8000000000000000 := by decide
  obtain ⟨hiff, hall⟩ := readLayout_encode .big h metadata [1, 2, 3, 4] hpixels hfields hshort .file
  have hs : Storable h := by constructor <;> decide
  obtain ⟨layout, hlayout⟩ := hiff.2 hs
  obtain ⟨hheader, -, hmeta, -⟩ := hall layout hlayout
  exact ⟨hpixels, hfields, hshort, layout, hlayout, hheader, hmeta.trans (by decide)⟩

end Native

end Raster
