/-
# What is written is read back, field by field

Each reading function, given what was written with anything behind it, returns
the value and leaves what is behind. From the numbers (`read16_put16`,
`read32_put32`, `read64_put64`) and texts (`readText_ofText`) follow the fields
of the metadata (`readField_fieldBytes`), the metadata itself
(`readMetadata_metadataBytes`) and the header (`readRawHeader_headerBytes`).

A header is accepted exactly where it is `Storable`.
-/
import Raster.Native.Writer
import Raster.Proofs.Bytes
import Raster.Proofs.Fields
import Raster.Proofs.Image.Size

namespace Raster

/-- Every interpretation has a name of its own. -/
theorem Interpretation.ofName?_name (i : Interpretation) : ofName? i.name = some i := by
  cases i <;> decide

/-- Names of interpretations are short enough for a length of one byte. -/
theorem Interpretation.length_name_lt (i : Interpretation) :
    (Bytes.ofText i.name).length < UInt8.size := by
  cases i <;> decide

namespace Native

variable {order : ByteOrder} {rest : Bytes}

/-! ### Numbers and texts -/

/-- What was written is read, and what follows is left. -/
theorem readBytes_append {n : Nat} {piece : Bytes} (h : piece.length = n) (rest : Bytes) :
    readBytes n (piece ++ rest) = .ok (piece, rest) := by
  simp [readBytes, ← h]

/-- So are words, in the order in which they were written. -/
theorem read16_put16 (order : ByteOrder) (n : UInt16) (rest : Bytes) :
    read16 order (order.put16 n ++ rest) = .ok (n, rest) := by
  simp only [read16, readBytes_append (ByteOrder.length_put16 order n), Except.map,
    ByteOrder.get16_put16]

theorem read32_put32 (order : ByteOrder) (n : UInt32) (rest : Bytes) :
    read32 order (order.put32 n ++ rest) = .ok (n, rest) := by
  simp only [read32, readBytes_append (ByteOrder.length_put32 order n), Except.map,
    ByteOrder.get32_put32]

theorem read64_put64 (order : ByteOrder) (n : UInt64) (rest : Bytes) :
    read64 order (order.put64 n ++ rest) = .ok (n, rest) := by
  simp only [read64, readBytes_append (ByteOrder.length_put64 order n), Except.map,
    ByteOrder.get64_put64]

/-- And texts, for what was written is UTF-8. -/
theorem readText_ofText {n : Nat} {s : String} (h : (Bytes.ofText s).length = n) (rest : Bytes) :
    readText n (Bytes.ofText s ++ rest) = .ok (s, rest) := by
  rw [readText, readBytes_append h]
  simp only [bind, Except.bind, Utf8.decode_ofText]
  rfl

/-! ### Metadata -/

/-- A value of a known kind and length is read as what it was. -/
theorem readValue_valueBytes (order : ByteOrder) (name : String) (value : MetaValue)
    (rest : Bytes) :
    readValue order name (kindOf value) (valueBytes order value).length
      (valueBytes order value ++ rest) = .ok (value, rest) := by
  cases value with
  | int v =>
    simp only [readValue, kindOf, valueBytes, ByteOrder.length_put64, and_self, if_true,
      read64_put64, Except.map]
    rfl
  | double v =>
    simp only [readValue, kindOf, valueBytes, ByteOrder.length_put64, read64_put64]
    rfl
  | text v =>
    simp only [readValue, kindOf, valueBytes, readText_ofText rfl]
    rfl
  | blob v =>
    simp only [readValue, kindOf, valueBytes, readBytes_append rfl]
    rfl

/-- A byte is read from the front. -/
theorem readByte_cons (b : UInt8) (rest : Bytes) : readByte (b :: rest) = .ok (b, rest) := rfl

/-- **A field that has a place is read back.** -/
theorem readField_fieldBytes {field : String × MetaValue}
    (hfits : fits order field.1 field.2 = true) (rest : Bytes) :
    readField order (fieldBytes order field ++ rest) = .ok (field, rest) := by
  obtain ⟨name, value⟩ := field
  simp only [fits, Bool.and_eq_true, decide_eq_true_eq] at hfits
  have hname : (UInt16.ofNat (Bytes.ofText name).length).toNat = (Bytes.ofText name).length :=
    UInt16.toNat_ofNat_of_lt' hfits.1
  have hvalue : (UInt32.ofNat (valueBytes order value).length).toNat
      = (valueBytes order value).length :=
    UInt32.toNat_ofNat_of_lt' hfits.2
  simp only [fieldBytes, readField, List.append_assoc, List.cons_append, List.nil_append,
    read16_put16, bind, Except.bind, hname, readText_ofText rfl, readByte_cons, read32_put32,
    hvalue, readValue_valueBytes, pure, Except.pure]

/-- Fields are read one after another into what was read before. -/
theorem readFields_flatMap :
    ∀ {fields : List (String × MetaValue)} {metadata : Metadata},
      (∀ field ∈ fields, fits order field.1 field.2 = true) →
        readFields order fields.length metadata (fields.flatMap (fieldBytes order) ++ rest)
          = .ok (fields.foldl (fun acc e => acc.insert e.1 e.2) metadata)
  | [], _, _ => rfl
  | field :: fields, metadata, h => by
    rw [List.length_cons, readFields, List.flatMap_cons, List.append_assoc,
      readField_fieldBytes (h field List.mem_cons_self)]
    exact readFields_flatMap fun f hf => h f (List.mem_cons_of_mem _ hf)

/-- What is written fits. -/
theorem fits_of_mem_written {metadata : Metadata} {field : String × MetaValue}
    (h : field ∈ (written order metadata).toList) : fits order field.1 field.2 = true :=
  (List.mem_filter.1 h).2

/-- And is no more than there was. -/
theorem size_written_le (order : ByteOrder) (metadata : Metadata) :
    (written order metadata).toList.length ≤ metadata.size :=
  Nat.le_trans (List.length_filter_le ..) (List.length_filter_le ..)

/-- **The metadata that is written is read back.** -/
theorem readMetadata_metadataBytes (metadata : Metadata) (hsize : metadata.size < UInt32.size)
    (order : ByteOrder) (rest : Bytes) :
    readMetadata order (metadataBytes order metadata ++ rest) = .ok (written order metadata) := by
  have hcount : (UInt32.ofNat (written order metadata).toList.length).toNat
      = (written order metadata).toList.length :=
    UInt32.toNat_ofNat_of_lt' (Nat.lt_of_le_of_lt (size_written_le order metadata) hsize)
  simp only [metadataBytes, readMetadata, List.append_assoc, read32_put32, bind, Except.bind,
    hcount]
  rw [readFields_flatMap fun field hf => fits_of_mem_written hf, Fields.foldl_insert_toList]

/-! ### The header -/

/-- The fields of a header as they stand in a container. -/
def RawHeader.of (h : Header) : RawHeader where
  format := UInt8.ofNat h.format.index
  coding := codingCode h.coding
  width := h.width
  height := h.height
  bands := h.bands
  xres := h.xres
  yres := h.yres
  interpretation := h.interpretation.name

/-- A header is read back field by field, before anything is checked. -/
theorem readRawHeader_headerBytes (order : ByteOrder) (h : Header) (rest : Bytes) :
    readRawHeader order (headerBytes order h ++ rest) = .ok (RawHeader.of h, rest) := by
  have hname : (UInt8.ofNat (Bytes.ofText h.interpretation.name).length).toNat
      = (Bytes.ofText h.interpretation.name).length :=
    UInt8.toNat_ofNat_of_lt' h.interpretation.length_name_lt
  simp only [headerBytes, readRawHeader, List.append_assoc, List.cons_append, List.nil_append,
    readByte_cons, read32_put32, read64_put64, bind, Except.bind, hname, readText_ofText rfl, pure,
    Except.pure]
  rfl

/-- A header that a container can have: not empty, within the cap, of a size that fits a word, and
with four `uchar` bands where it is coded. -/
structure Storable (h : Header) : Prop where
  width_pos : 0 < h.width
  height_pos : 0 < h.height
  bands_pos : 0 < h.bands
  width_le : h.width ≤ Header.maxDimension
  height_le : h.height ≤ Header.maxDimension
  bands_le : h.bands ≤ Header.maxDimension
  sized : h.checkedImageSize.isSome = true
  coded : h.coding ≠ .none → h.bands = 4 ∧ h.format = .uchar

/-- Every coding has a code of its own. -/
theorem codingOfCode?_codingCode (coding : Coding) :
    codingOfCode? (codingCode coding) = some coding := by
  cases coding <;> rfl

/-- And a format's place in the table fits a byte. -/
theorem ofIndex?_formatByte (f : BandFormat) :
    BandFormat.ofIndex? (UInt8.ofNat f.index).toNat = some f := by
  cases f <;> rfl

/-- What a check of a written header comes to. -/
theorem check_of (h : Header) :
    (RawHeader.of h).check =
      if h.width = 0 ∨ h.height = 0 ∨ h.bands = 0 then
        .error (.emptyImage h.width h.height h.bands)
      else if h.coding ≠ .none ∧ (h.bands ≠ 4 ∨ h.format ≠ .uchar) then
        .error (.codedShape h.coding)
      else if h.checkedImageSize.isNone then .error (.tooLarge h.width h.height h.bands)
      else .ok h := by
  simp only [RawHeader.check, RawHeader.of, ofIndex?_formatByte, codingOfCode?_codingCode,
    Interpretation.ofName?_name]
  rfl

/-- **A written header is read as itself, where it is storable, and not at all elsewhere.** -/
theorem check_of_eq_ok {h found : Header} :
    (RawHeader.of h).check = .ok found ↔ Storable h ∧ found = h := by
  rw [check_of]
  constructor
  · intro hok
    split at hok
    · cases hok
    · rename_i hempty
      split at hok
      · cases hok
      · rename_i hcoded
        split at hok
        · cases hok
        · rename_i hsize
          obtain rfl := Except.ok.inj hok
          simp only [not_or, ← UInt32.pos_iff_ne_zero] at hempty
          obtain ⟨hw, hh, hb⟩ := hempty
          obtain ⟨n, hn⟩ := Option.ne_none_iff_exists'.1 (mt Option.isNone_iff_eq_none.2 hsize)
          obtain ⟨⟨hwle, hhle, hble⟩, -⟩ := Header.checkedImageSize_eq_some.1 hn
          refine ⟨⟨hw, hh, hb, hwle, hhle, hble, by rw [hn]; rfl, fun hc => ?_⟩, rfl⟩
          simpa [hc, not_or] using hcoded
  · rintro ⟨hs, rfl⟩
    rw [if_neg, if_neg, if_neg]
    · rw [Option.isNone_iff_eq_none]
      exact Option.isSome_iff_ne_none.1 hs.sized
    · rintro ⟨hc, hshape⟩
      obtain ⟨hb, hf⟩ := hs.coded hc
      grind
    · have := hs.width_pos
      have := hs.height_pos
      have := hs.bands_pos
      grind

end Native

end Raster
