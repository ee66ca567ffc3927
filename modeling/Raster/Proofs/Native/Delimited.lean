/-
# Where a container ends

A container says by itself where it ends: its last part is a list of fields with a count in front.
So one that is cut short anywhere is found out, whichever part the cut goes through, and bytes behind
a whole one are never looked at.

| the cut goes through | found out by |
| --- | --- |
| the first six bytes, the header, the interpretation's name | the reader of that part |
| the pixels, which are passed over | the reader of the count behind them |
| the count, a name, a length or a value | the reader of that part |

A reader is `CutShort` on a piece where it calls every proper beginning of the piece truncated, and
a chain of readers is where its links are (`CutShort.bind`). Behind the header everything depends on
what stands where the metadata should (`readLayout_front`).
-/
import Mathlib.Data.List.Infix
import Raster.Proofs.Native.AnyBytes

namespace Raster

/-- A proper beginning of two pieces ends in the first one or in the second one. -/
theorem prefix_append_cases {α : Type} {p a b : List α} (h : p <+: a ++ b) (hne : p ≠ a ++ b) :
    (p <+: a ∧ p ≠ a) ∨ ∃ q, p = a ++ q ∧ q <+: b ∧ q ≠ b := by
  rcases List.prefix_or_prefix_of_prefix h (List.prefix_append a b) with hp | ⟨q, rfl⟩
  · by_cases hpa : p = a
    · subst hpa
      refine .inr ⟨[], (List.append_nil p).symm, List.nil_prefix, ?_⟩
      rintro rfl
      exact hne (List.append_nil p).symm
    · exact .inl ⟨hp, hpa⟩
  · refine .inr ⟨q, rfl, (List.prefix_append_right_inj a).1 h, ?_⟩
    rintro rfl
    exact hne rfl

/-- A proper beginning is shorter. -/
theorem length_lt_of_prefix {α : Type} {p a : List α} (h : p <+: a) (hne : p ≠ a) :
    p.length < a.length :=
  Nat.lt_of_le_of_ne h.length_le fun heq => hne (h.eq_of_length heq)

namespace Native

variable {order : ByteOrder}

/-! ### Readers on a piece that is cut short -/

/-- The reader calls every proper beginning of a piece truncated. -/
def CutShort {β : Type} (read : Bytes → Except Fault β) (piece : Bytes) : Prop :=
  ∀ p, p <+: piece → p ≠ piece → read p = .error .truncated

namespace CutShort

variable {α β : Type} {read : Bytes → Except Fault α} {a b : Bytes}

/-- If the first reader misses something, the whole does. -/
theorem andThen {next : α → Except Fault β} (ha : CutShort read a) :
    CutShort (fun bytes => read bytes >>= next) a := by
  intro p hp hne
  simp only [ha p hp hne]
  rfl

/-- Two readers one after the other, where the first one takes its own piece. -/
theorem bind {read : Bytes → Except Fault (α × Bytes)} {next : α × Bytes → Except Fault β} {x : α}
    (hread : ∀ rest, read (a ++ rest) = .ok (x, rest)) (ha : CutShort read a)
    (hb : CutShort (fun rest => next (x, rest)) b) :
    CutShort (fun bytes => read bytes >>= next) (a ++ b) := by
  intro p hp hne
  rcases prefix_append_cases hp hne with ⟨hp, hne⟩ | ⟨q, rfl, hq, hne⟩
  · exact ha.andThen p hp hne
  · simp only [hread]
    exact hb q hq hne

end CutShort

/-- Readers of a fixed length miss what was cut off. -/
theorem cutShort_readBytes {n : Nat} {piece : Bytes} (h : piece.length = n) :
    CutShort (readBytes n) piece := by
  intro p hp hne
  have hlt := length_lt_of_prefix hp hne
  rw [readBytes, if_pos]
  rw [List.length_take]
  omega

/-- A byte is there or not. -/
theorem cutShort_readByte (b : UInt8) : CutShort readByte [b] := by
  intro p hp hne
  have hlt : p.length < 1 := length_lt_of_prefix hp hne
  obtain rfl := List.eq_nil_of_length_eq_zero (Nat.lt_one_iff.1 hlt)
  rfl

/-- Words are bytes of a fixed length. -/
theorem cutShort_read16 (n : UInt16) : CutShort (read16 order) (order.put16 n) := by
  intro p hp hne
  rw [read16, cutShort_readBytes (order.length_put16 n) p hp hne]
  rfl

theorem cutShort_read32 (n : UInt32) : CutShort (read32 order) (order.put32 n) := by
  intro p hp hne
  rw [read32, cutShort_readBytes (order.length_put32 n) p hp hne]
  rfl

theorem cutShort_read64 (n : UInt64) : CutShort (read64 order) (order.put64 n) := by
  intro p hp hne
  rw [read64, cutShort_readBytes (order.length_put64 n) p hp hne]
  rfl

/-- Texts have the length that was said before them; that the beginning of a text may be no UTF-8 is
found out only after that. -/
theorem cutShort_readText {n : Nat} {s : String} (h : (Bytes.ofText s).length = n) :
    CutShort (readText n) (Bytes.ofText s) :=
  (cutShort_readBytes h).andThen

/-! ### The parts of a container -/

/-- A container that ends in its first six bytes is truncated. -/
theorem cutShort_readStart (order : ByteOrder) :
    CutShort readStart (magic ++ [version, orderTag order]) :=
  (cutShort_readBytes (by cases order <;> decide)).andThen

/-- So is one that ends in its header, whose name says how long it is. -/
theorem cutShort_readRawHeader (order : ByteOrder) (h : Header) :
    CutShort (readRawHeader order) (headerBytes order h) := by
  have hname : (UInt8.ofNat (Bytes.ofText h.interpretation.name).length).toNat
      = (Bytes.ofText h.interpretation.name).length :=
    UInt8.toNat_ofNat_of_lt' h.interpretation.length_name_lt
  have hparts : headerBytes order h =
      [UInt8.ofNat h.format.index] ++ ([codingCode h.coding] ++ (order.put32 h.width ++
        (order.put32 h.height ++ (order.put32 h.bands ++ (order.put64 h.xres.bits ++
          (order.put64 h.yres.bits ++ ([UInt8.ofNat (Bytes.ofText h.interpretation.name).length] ++
            Bytes.ofText h.interpretation.name))))))) := by
    simp only [headerBytes, List.append_assoc, List.cons_append, List.nil_append]
  rw [hparts]
  refine .bind (readByte_cons _) (cutShort_readByte _) ?_
  refine .bind (readByte_cons _) (cutShort_readByte _) ?_
  refine .bind (read32_put32 order _) (cutShort_read32 _) ?_
  refine .bind (read32_put32 order _) (cutShort_read32 _) ?_
  refine .bind (read32_put32 order _) (cutShort_read32 _) ?_
  refine .bind (read64_put64 order _) (cutShort_read64 _) ?_
  refine .bind (read64_put64 order _) (cutShort_read64 _) ?_
  refine .bind (readByte_cons _) (cutShort_readByte _) ?_
  exact (cutShort_readText hname.symm).andThen

/-- A value is cut short in its number, its length or its bytes. -/
theorem cutShort_readValue (order : ByteOrder) (name : String) (value : MetaValue) :
    CutShort (readValue order name (kindOf value) (valueBytes order value).length)
      (valueBytes order value) := by
  intro p hp hne
  cases value with
  | int v =>
    simp only [readValue, kindOf, valueBytes, ByteOrder.length_put64, and_self, if_true,
      cutShort_read64 _ p hp hne]
    rfl
  | double v =>
    simp only [readValue, kindOf, valueBytes, ByteOrder.length_put64, cutShort_read64 _ p hp hne]
    rfl
  | text v =>
    simp only [readValue, kindOf, valueBytes, cutShort_readText rfl p hp hne]
    rfl
  | blob v =>
    have hcut : readBytes v.length p = .error .truncated := cutShort_readBytes rfl p hp hne
    simp only [readValue, kindOf, valueBytes, hcut]
    rfl

/-- A field is cut short in its name or its value. -/
theorem cutShort_readField {field : String × MetaValue}
    (hfits : fits order field.1 field.2 = true) :
    CutShort (readField order) (fieldBytes order field) := by
  obtain ⟨name, value⟩ := field
  simp only [fits, Bool.and_eq_true, decide_eq_true_eq] at hfits
  have hname : (UInt16.ofNat (Bytes.ofText name).length).toNat = (Bytes.ofText name).length :=
    UInt16.toNat_ofNat_of_lt' hfits.1
  have hvalue : (UInt32.ofNat (valueBytes order value).length).toNat
      = (valueBytes order value).length :=
    UInt32.toNat_ofNat_of_lt' hfits.2
  have hparts : fieldBytes order (name, value) =
      order.put16 (UInt16.ofNat (Bytes.ofText name).length) ++ (Bytes.ofText name ++
        ([kindOf value] ++ (order.put32 (UInt32.ofNat (valueBytes order value).length) ++
          valueBytes order value))) := by
    simp only [fieldBytes, List.append_assoc]
  rw [hparts]
  refine .bind (read16_put16 order _) (cutShort_read16 _) ?_
  refine .bind (readText_ofText hname.symm) (cutShort_readText hname.symm) ?_
  refine .bind (readByte_cons _) (cutShort_readByte _) ?_
  refine .bind (read32_put32 order _) (cutShort_read32 _) ?_
  simp only [hvalue]
  exact (cutShort_readValue order name value).andThen

/-- Fields are cut short in the first one that is not whole, by induction on how many were announced. -/
theorem cutShort_readFields :
    ∀ {fields : List (String × MetaValue)} {metadata : Metadata},
      (∀ field ∈ fields, fits order field.1 field.2 = true) →
        CutShort (readFields order fields.length metadata) (fields.flatMap (fieldBytes order))
  | [], _, _, p, hp, hne => absurd (List.prefix_nil.1 hp) hne
  | field :: fields, metadata, h, p, hp, hne => by
    rw [List.forall_mem_cons] at h
    rw [List.flatMap_cons] at hp hne
    rw [List.length_cons, readFields]
    rcases prefix_append_cases hp hne with ⟨hp, hne⟩ | ⟨q, rfl, hq, hne⟩
    · rw [cutShort_readField h.1 p hp hne]
    · rw [readField_fieldBytes h.1]
      exact cutShort_readFields h.2 q hq hne

section

variable {h : Header} {metadata : Metadata} {pixels : Bytes}

/-- Metadata is cut short in its count or its fields. -/
theorem cutShort_readMetadata (hfields : metadata.size < UInt32.size) :
    CutShort (readMetadata order) (metadataBytes order metadata) := by
  have hcount : (UInt32.ofNat (written order metadata).toList.length).toNat
      = (written order metadata).toList.length :=
    UInt32.toNat_ofNat_of_lt' (Nat.lt_of_le_of_lt (size_written_le order metadata) hfields)
  refine .bind (read32_put32 order _) (cutShort_read32 _) ?_
  simp only [hcount]
  exact cutShort_readFields fun field hfield => fits_of_mem_written hfield

/-! ### The container -/

/-- What stands in front of the pixels. -/
def front (order : ByteOrder) (h : Header) : Bytes :=
  (magic ++ [version, orderTag order]) ++ headerBytes order h

/-- In front of the pixels stands what they start behind. -/
theorem length_front (order : ByteOrder) (h : Header) :
    (front order h).length = pixelStart order h := by
  have hmagic : magic.length = 4 := by decide
  simp only [front, pixelStart, List.length_append, hmagic, List.length_cons, List.length_nil]

/-- A container is its front, its pixels and its metadata. -/
theorem encode_eq_front (order : ByteOrder) (h : Header) (metadata : Metadata) (pixels : Bytes) :
    encode order h metadata pixels =
      front order h ++ (reorder h.format order pixels ++ metadataBytes order metadata) := by
  rw [encode_eq, front, List.append_assoc (magic ++ _)]

/-- **What follows the header of a storable image decides by its metadata,** which is looked for
behind as many bytes as the pixels have. -/
theorem readLayout_front (hs : Storable h)
    (hend : pixelStart order h + h.imageBytes < 0x8000000000000000) (medium : Medium)
    (body : Bytes) :
    readLayout medium (front order h ++ body) =
      (readMetadata order (body.drop h.imageBytes)).map fun metadata =>
        { header := h, order, pixels := UInt64.ofNat (pixelStart order h), metadata } := by
  obtain ⟨n, hn⟩ := Option.isSome_iff_exists.1 hs.sized
  have hstart : (UInt64.ofNat (pixelStart order h)).toNat = pixelStart order h :=
    UInt64.toNat_ofNat_of_lt' (by rw [UInt64.size]; omega)
  obtain ⟨stop, hstop, hstopNat⟩ :=
    exists_pixelEnd (UInt64.ofNat (pixelStart order h)) hn (by rw [UInt64.size]; omega)
  have hreach : medium.reaches stop = true := by
    cases medium with
    | memory => rfl
    | file => exact decide_eq_true (by omega)
  have hoffset : (front order h ++ body).length - body.length = pixelStart order h := by
    rw [List.length_append, length_front, Nat.add_sub_cancel]
  have hrest : (front order h ++ body).drop stop.toNat = body.drop h.imageBytes := by
    rw [hstopNat, hstart, ← List.drop_drop, List.drop_left' (length_front order h)]
  rw [readLayout]
  conv =>
    lhs
    rw [front, List.append_assoc, readStart_append, ← List.append_assoc, ← front]
  simp only [bind, Except.bind, readRawHeader_headerBytes, check_of_eq_ok.2 ⟨hs, rfl⟩, hoffset,
    hstop, hreach, if_true, hrest]
  rfl

/-- A whole container with anything behind it is read as the container. -/
theorem readLayout_encode_append (hs : Storable h) (hpixels : pixels.length = h.imageBytes)
    (hfields : metadata.size < UInt32.size)
    (hend : pixelStart order h + h.imageBytes < 0x8000000000000000) (medium : Medium)
    (tail : Bytes) :
    readLayout medium (encode order h metadata pixels ++ tail) = .ok
      { header := h, order, pixels := UInt64.ofNat (pixelStart order h),
        metadata := written order metadata } := by
  rw [encode_eq_front, List.append_assoc, List.append_assoc, readLayout_front hs hend,
    List.drop_left' (by rw [length_reorder, hpixels]),
    readMetadata_metadataBytes metadata hfields order tail]
  rfl

/-- **A container that is cut short anywhere is truncated.** -/
theorem cutShort_readLayout (hs : Storable h) (hpixels : pixels.length = h.imageBytes)
    (hfields : metadata.size < UInt32.size)
    (hend : pixelStart order h + h.imageBytes < 0x8000000000000000) (medium : Medium) :
    CutShort (readLayout medium) (encode order h metadata pixels) := by
  intro p hp hne
  rw [encode_eq_front] at hp hne
  rcases prefix_append_cases hp hne with ⟨hp, hne⟩ | ⟨body, rfl, hbody, hne⟩
  · rcases prefix_append_cases hp hne with ⟨hp, hne⟩ | ⟨q, rfl, hq, hne⟩
    · rw [readLayout, cutShort_readStart order p hp hne]
      rfl
    · rw [readLayout, readStart_append]
      simp only [bind, Except.bind, cutShort_readRawHeader order h q hq hne]
  · have hlength : (reorder h.format order pixels).length = h.imageBytes := by
      rw [length_reorder, hpixels]
    -- the pixels are passed over, so the cut shows in what is left of the metadata
    have hrest : body.drop h.imageBytes <+: metadataBytes order metadata := by
      have hdrop := hbody.drop h.imageBytes
      rwa [List.drop_left' hlength] at hdrop
    have hcut : body.drop h.imageBytes ≠ metadataBytes order metadata := by
      intro heq
      have hcount : 4 ≤ (metadataBytes order metadata).length :=
        length_of_readMetadata (List.append_nil (metadataBytes order metadata) ▸
          readMetadata_metadataBytes metadata hfields order [])
      have hlt := length_lt_of_prefix hbody hne
      have hdropped := congrArg List.length heq
      rw [List.length_drop] at hdropped
      rw [List.length_append, hlength] at hlt
      omega
    rw [readLayout_front hs hend, cutShort_readMetadata hfields _ hrest hcut]
    rfl

/-- The pixels in a container are found whatever stands behind it. -/
theorem body_encode_append (hpixels : pixels.length = h.imageBytes) (tail : Bytes) :
    Layout.body
      { header := h, order, pixels := UInt64.ofNat (pixelStart order h),
        metadata := written order metadata }
      (encode order h metadata pixels ++ tail) = pixels := by
  have hstart : (UInt64.ofNat (pixelStart order h)).toNat = (front order h).length := by
    rw [length_front]
    exact UInt64.toNat_ofNat_of_lt' (by have := pixelStart_lt order h; rw [UInt64.size]; omega)
  rw [Layout.body, hstart, encode_eq_front, List.append_assoc, List.append_assoc, List.drop_left,
    List.take_left' (by rw [length_reorder, hpixels]), reorder_reorder]

end

/-- The header step in terms of the bytes that the input has. -/
theorem result_header {context : LoadContext} {host : Host} {bytes : Bytes}
    (hread : (context.input.readAll host).1 = .ok bytes) :
    (header context host).result =
      match readLayout (mediumOf context.input) bytes with
      | .ok layout => .ok { header := layout.header, metadata := layout.metadata }
      | .error fault => .error (fault.toError context.name) := by
  obtain ⟨after, hafter⟩ : ∃ after, context.input.readAll host = (.ok bytes, after) :=
    ⟨_, Prod.ext hread rfl⟩
  simp only [header, layoutOf, hafter]
  cases readLayout (mediumOf context.input) bytes <;> rfl

/-- **A container ends where it says.**  Of a container that was written for a storable image, the
header step refuses every proper beginning, from a buffer, a stream or a file, because it is
truncated. And whatever stands behind the whole of it, the header step gives the same header and
metadata, and what the decode step gives shows the same pixels. (A byte string is shorter than
`2^63` bytes, an image has as many bytes of pixels as its header says, and the count of its fields
has 32 bits.) -/
theorem header_encode_delimited {order : ByteOrder} {h : Header} {metadata : Metadata}
    {pixels : Bytes} (hs : Storable h) (hpixels : pixels.length = h.imageSize.toNat)
    (hfields : metadata.size < UInt32.size)
    (hshort : (encode order h metadata pixels).length < 0x8000000000000000) :
    (∀ p, p <+: encode order h metadata pixels → p ≠ encode order h metadata pixels →
      ∀ context host, (context.input.readAll host).1 = .ok p →
        (loader.header context host).result
          = .error (.decode context.name "file is truncated")) ∧
    ∀ tail, (encode order h metadata pixels ++ tail).length < 0x8000000000000000 →
      ∀ context host,
        (context.input.readAll host).1 = .ok (encode order h metadata pixels ++ tail) →
          (loader.header context host).result
            = .ok { header := h, metadata := metadata.filter isStored } ∧
          ∃ image, (loader.decode context host).result = .ok image ∧ image.header = h ∧
            ∀ later, context.input.StaysIn host.files later
                (encode order h metadata pixels ++ tail) →
              image.Shows later pixels ∧ image.fetchAllFrom later = .ok pixels := by
  obtain ⟨n, hn⟩ := Option.isSome_iff_exists.1 hs.sized
  have hlen : pixels.length = h.imageBytes := by
    rw [hpixels, Header.imageSize_eq hn, (Header.checkedImageSize_eq_some.1 hn).2]
  rw [length_encode, hlen] at hshort
  have hend : pixelStart order h + h.imageBytes < 0x8000000000000000 := by omega
  refine ⟨fun p hp hne context host hread => ?_, fun tail htail context host hread => ?_⟩
  · rw [show loader.header context host = header context host from rfl, result_header hread,
      cutShort_readLayout hs hlen hfields hend _ p hp hne]
    rfl
  · have hlayout := readLayout_encode_append hs hlen hfields hend (mediumOf context.input) tail
    -- The tail stands behind the last byte that either step looks at.
    refine ⟨?_, ?_⟩
    · rw [show loader.header context host = header context host from rfl, result_header hread,
        hlayout, written_eq]
    · have hstart : (UInt64.ofNat (pixelStart order h)).toNat = pixelStart order h :=
        UInt64.toNat_ofNat_of_lt' (by rw [UInt64.size]; omega)
      have hinside : (UInt64.ofNat (pixelStart order h)).toNat + h.imageBytes
          ≤ (encode order h metadata pixels ++ tail).length := by
        rw [hstart, List.length_append, length_encode, hlen]
        omega
      obtain ⟨image, hdecode, hheader, -, hshows⟩ :=
        exists_decode_later hread hlayout hn hinside htail
      refine ⟨image, hdecode, hheader, fun later hstays => ?_⟩
      have hpix := hshows later hstays
      rw [body_encode_append hlen] at hpix
      exact ⟨hpix, hpix.fetchAllFrom (by rw [hlen, hheader])⟩

/-- A container of two 16-bit pixels and a description, in the other byte order: cut in the middle
of a pixel it is truncated, and two bytes behind it in a file do not show. -/
theorem header_encode_delimited_short :
    let h : Header :=
      { width := 2, height := 1, bands := 1, format := .ushort, interpretation := .bw }
    let metadata : Metadata := Fields.empty.insert Metadata.imageDescription (.text "sky")
    let whole := encode .big h metadata [1, 0, 2, 0]
    let host : Host := { files :=
      { names := Fields.empty.insert "a" (.file 0), contents := [(whole ++ [7, 7]).toArray] } }
    let context (input : Input) : LoadContext :=
      { name := "nimgload", input, options := {}, access := .random, failOn := .none }
    Storable h ∧ ([1, 0, 2, 0] : Bytes).length = h.imageSize.toNat ∧
      metadata.size < UInt32.size ∧ whole.length < 0x8000000000000000 ∧
      (loader.header (context (.buffer (whole.take 41))) {}).result
        = .error (.decode "nimgload" "file is truncated") ∧
      (loader.header (context (.file "a")) host).result
        = .ok { header := h, metadata := metadata.filter isStored } ∧
      ∃ image, (loader.decode (context (.file "a")) host).result = .ok image ∧
        image.fetchAllFrom host.files = .ok [1, 0, 2, 0] := by
  intro h metadata whole host context
  have hs : Storable h := by constructor <;> decide
  have hpixels : ([1, 0, 2, 0] : Bytes).length = h.imageSize.toNat := by decide
  have hfields : metadata.size < UInt32.size := by decide
  have hshort : whole.length < 0x8000000000000000 := by decide
  obtain ⟨hcut, htail⟩ := header_encode_delimited hs hpixels hfields hshort
  have hread : ((context (.file "a")).input.readAll host).1 = .ok (whole ++ [7, 7]) := by rfl
  obtain ⟨hheader, image, hdecode, -, hlater⟩ := htail [7, 7] (by decide) _ host hread
  exact ⟨hs, hpixels, hfields, hshort,
    hcut _ (List.take_prefix 41 whole) (by decide) (context (.buffer _)) {} rfl, hheader, image,
    hdecode, (hlater host.files (Input.staysIn_self hread)).2⟩

end Native

end Raster
