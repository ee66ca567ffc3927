/-
# The round trip of an EXIF block

Writing lays a directory out as its table and, behind it, everything that the
table points at. Wherever the written bytes stand in a larger string, reading
finds the same entries: a short value in its record, a long one and a directory
at the offset that the record names. The induction is on the nesting
(`readEntry_writeEntry`); a directory is read if each of its entries is
(`readDirectory_writeDirectory`).

The count in front of a table has 16 bits. Of a directory with more entries than
it can say, reading finds as many as are left of their number modulo 65536
(`Entry.cut`); nothing is cut exactly where all counts fit (`cut_eq_self_iff`).

So a block that was read and edited, written and read again is itself with every
directory in tag order and cut to its count (`parse_toBytes_cut`), as long as
offsets fit their fields.
-/
import Raster.Proofs.Exif.Shape

namespace Raster

namespace Exif

/-- An entry in which every directory has a count of 16 bits. -/
inductive Entry.CountsFit : Entry → Prop
  | value (tag kind : UInt16) (count : UInt32) (bytes : Bytes) :
    CountsFit (.value tag kind count bytes)
  | directory (tag kind : UInt16) {entries : List Entry} (fits : entries.length ≤ 65535)
    (each : ∀ e ∈ entries, CountsFit e) : CountsFit (.directory tag kind entries)

/-- Whether every directory of a block has at most 65535 entries. -/
def CountsFit (exif : Exif) : Prop := Entry.CountsFit (.directory 0 0 exif.entries)

/-- Sorting adds no entry, so counts that fit still do. -/
theorem Entry.CountsFit.sorted {e : Entry} (h : e.CountsFit) : e.sorted.CountsFit := by
  induction h with
  | value tag kind count bytes =>
    rw [Entry.sorted_value]
    exact .value ..
  | directory tag kind fits each ih =>
    rw [Entry.sorted_directory]
    refine .directory tag kind (by rwa [length_sortByTag, List.length_map]) fun e he => ?_
    obtain ⟨e', he', rfl⟩ := List.mem_map.1 (mem_sortByTag.1 he)
    exact ih e' he'

/-! ### Counts -/

namespace Entry

mutual

/-- The entry with every directory in it cut to as many entries as its 16-bit count says. -/
def cut : Entry → Entry
  | value t k c b => value t k c b
  | directory t k es => directory t k ((cutAll es).take (es.length % UInt16.size))

/-- The entries, each with every directory in it so cut. -/
def cutAll : List Entry → List Entry
  | [] => []
  | e :: es => cut e :: cutAll es

end

/-- Entries are cut one by one. -/
theorem cutAll_eq_map (es : List Entry) : cutAll es = es.map cut := by
  induction es with
  | nil => rfl
  | cons e es ih => rw [cutAll, ih, List.map_cons]

/-- A value has no table to be cut. -/
@[simp] theorem cut_value (tag kind : UInt16) (count : UInt32) (bytes : Bytes) :
    cut (.value tag kind count bytes) = .value tag kind count bytes := by rw [cut]

/-- The entries of a directory that is so cut. -/
def cutTable (es : List Entry) : List Entry := (es.map cut).take (es.length % UInt16.size)

/-- A directory is cut to what its count can say, and so is everything below. -/
@[simp] theorem cut_directory (tag kind : UInt16) (es : List Entry) :
    cut (.directory tag kind es) = .directory tag kind (cutTable es) := by
  rw [cut, cutAll_eq_map, cutTable]

/-- A list stays whole where each of its entries does. -/
theorem map_cut_eq_self_iff {es : List Entry} : es.map cut = es ↔ ∀ e ∈ es, e.cut = e := by
  rw [show es.map cut = es ↔ es.map cut = es.map id by rw [List.map_id], List.map_inj_left]
  rfl

/-- **Nothing is cut exactly where counts fit.** -/
theorem cut_eq_self_iff {e : Entry} : e.cut = e ↔ e.CountsFit := by
  constructor
  · induction e using directory_induction with
    | value tag kind count bytes => exact fun _ => .value ..
    | directory tag kind es ih =>
      intro h
      rw [cut_directory, cutTable] at h
      injection h with _ _ h
      have hlength := congrArg List.length h
      rw [List.length_take, List.length_map] at hlength
      have hfits : es.length < UInt16.size := by
        have hless := Nat.mod_lt es.length (show 0 < UInt16.size by decide)
        omega
      rw [Nat.mod_eq_of_lt hfits, List.take_of_length_le (Nat.le_of_eq (List.length_map _))] at h
      exact .directory tag kind (Nat.le_of_lt_succ hfits) fun e he =>
        ih e he (map_cut_eq_self_iff.1 h e he)
  · intro h
    induction h with
    | value tag kind count bytes => rw [cut_value]
    | @directory tag kind es fits each ih =>
      rw [cut_directory, cutTable, Nat.mod_eq_of_lt (Nat.lt_succ_of_le fits),
        List.take_of_length_le (Nat.le_of_eq (List.length_map _)), map_cut_eq_self_iff.2 ih]

/-- Nor does sorting hide an entry: the counts fitted before. -/
theorem CountsFit.of_sorted {e : Entry} (h : e.sorted.CountsFit) : e.CountsFit := by
  induction e using directory_induction with
  | value tag kind count bytes => exact .value ..
  | directory tag kind es ih =>
    rw [sorted_directory] at h
    cases h with
    | directory _ _ fits each =>
      refine .directory tag kind (by rwa [length_sortByTag, List.length_map] at fits) fun e he => ?_
      exact ih e he (each _ (mem_sortByTag.2 (List.mem_map_of_mem he)))

end Entry

/-- The block with every directory cut to as many entries as its count says. -/
def cut (exif : Exif) : Exif :=
  { exif with entries := Entry.cutTable exif.entries }

/-- A block that is whole after its counts were cut is one whose counts fit. -/
theorem cut_eq_self_iff {exif : Exif} : exif.cut = exif ↔ exif.CountsFit := by
  rw [CountsFit, ← Entry.cut_eq_self_iff, Entry.cut_directory]
  obtain ⟨order, entries⟩ := exif
  simp only [cut, mk.injEq, true_and, Entry.directory.injEq]

/-- Tag order makes no difference to that. -/
theorem countsFit_normalised_iff {exif : Exif} : exif.normalised.CountsFit ↔ exif.CountsFit := by
  rw [CountsFit, entries_normalised, ← Entry.sorted_directory]
  exact ⟨Entry.CountsFit.of_sorted, Entry.CountsFit.sorted⟩

variable {order : ByteOrder} {data : Bytes}

/-! ### Records -/

/-- The twelve bytes of a record. -/
def record (order : ByteOrder) (tag kind : UInt16) (count : UInt32) (field : Bytes) : Bytes :=
  order.put16 tag ++ (order.put16 kind ++ (order.put32 count ++ field))

/-- Every record has twelve bytes. -/
theorem length_record (order : ByteOrder) (tag kind : UInt16) (count : UInt32) {field : Bytes}
    (hfield : field.length = 4) : (record order tag kind count field).length = 12 := by
  simp only [record, List.length_append, ByteOrder.length_put16, ByteOrder.length_put32, hfield]

/-- What a record says. -/
theorem readEntry_record {sub : Nat → Option (List Entry)} {tag kind : UInt16} {count : UInt32}
    {field : Bytes} (hfield : field.length = 4) :
    readEntry sub order data (record order tag kind count field) =
      if isPointer tag then (sub (order.get32 field).toNat).map (.directory tag kind)
      else if count.toNat * typeSize kind ≤ 4 then
        some (.value tag kind count (field.take (count.toNat * typeSize kind)))
      else
        (data.slice? (order.get32 field).toNat (count.toNat * typeSize kind)).map
          (.value tag kind count) := by
  have h2 : (record order tag kind count field).drop 2
      = order.put16 kind ++ (order.put32 count ++ field) := List.drop_left' (order.length_put16 tag)
  have h4 : (record order tag kind count field).drop 4 = order.put32 count ++ field := by
    rw [show 4 = 2 + 2 from rfl, ← List.drop_drop, h2, List.drop_left' (order.length_put16 kind)]
  have h8 : (record order tag kind count field).drop 8 = field := by
    rw [show 8 = 4 + 4 from rfl, ← List.drop_drop, h4, List.drop_left' (order.length_put32 count)]
  have h0 : (record order tag kind count field).take 2 = order.put16 tag :=
    List.take_left' (order.length_put16 tag)
  simp only [readEntry, h0, h2, h4, h8, List.take_left' (order.length_put16 kind),
    List.take_left' (order.length_put32 count), List.take_of_length_le (Nat.le_of_eq hfield),
    ByteOrder.get16_put16, ByteOrder.get32_put32]

/-- A value of four bytes or less stands in its record. -/
theorem writeEntry_short {pos : Nat} {tag kind : UInt16} {count : UInt32} {bytes : Bytes}
    (h : bytes.length ≤ 4) :
    writeEntry order pos (.value tag kind count bytes) =
      (record order tag kind count (bytes ++ List.replicate (4 - bytes.length) 0), []) := by
  simp only [writeEntry, if_pos h, record, List.append_assoc]

/-- A longer one stands at an even place behind the table, and the record says where. -/
theorem writeEntry_long {pos : Nat} {tag kind : UInt16} {count : UInt32} {bytes : Bytes}
    (h : ¬bytes.length ≤ 4) :
    writeEntry order pos (.value tag kind count bytes) =
      (record order tag kind count (order.put32 (UInt32.ofNat (pos + pos % 2))),
        List.replicate (pos % 2) 0 ++ bytes) := by
  simp only [writeEntry, if_neg h, record, List.append_assoc]

/-- So does a directory. -/
theorem writeEntry_directory {pos : Nat} {tag kind : UInt16} {entries : List Entry} :
    writeEntry order pos (.directory tag kind entries) =
      (record order tag kind 1 (order.put32 (UInt32.ofNat (pos + pos % 2))),
        List.replicate (pos % 2) 0 ++ writeDirectory order (pos + pos % 2) entries) := by
  simp only [writeEntry, writeDirectory, record, List.append_assoc]

/-- Whatever it says, an entry has one record in its table. -/
theorem length_writeEntry (order : ByteOrder) (pos : Nat) (e : Entry) :
    (writeEntry order pos e).1.length = 12 := by
  cases e with
  | value tag kind count bytes =>
    by_cases h : bytes.length ≤ 4
    · rw [writeEntry_short h]
      refine length_record order tag kind count ?_
      rw [List.length_append, List.length_replicate]
      omega
    · rw [writeEntry_long h]
      exact length_record order tag kind count (order.length_put32 _)
  | directory tag kind entries =>
    rw [writeEntry_directory]
    exact length_record order tag kind 1 (order.length_put32 _)

/-! ### Directories -/

/-- An entry in front pushes what stands behind the table further back. -/
theorem writeEntries_cons (order : ByteOrder) (pos : Nat) (e : Entry) (es : List Entry) :
    writeEntries order pos (e :: es) =
      ((writeEntry order pos e).1
          ++ (writeEntries order (pos + (writeEntry order pos e).2.length) es).1,
        (writeEntry order pos e).2
          ++ (writeEntries order (pos + (writeEntry order pos e).2.length) es).2) := by
  rw [writeEntries]

/-- The table has one record for each entry. -/
theorem length_writeEntries (order : ByteOrder) :
    ∀ (es : List Entry) (pos : Nat), (writeEntries order pos es).1.length = es.length * 12
  | [], _ => by rw [writeEntries]; rfl
  | e :: es, pos => by
    rw [writeEntries_cons, List.length_append, length_writeEntry, length_writeEntries order es,
      List.length_cons, Nat.succ_mul, Nat.add_comm]

/-- The same for several entries in front. -/
theorem writeEntries_append (order : ByteOrder) :
    ∀ (front back : List Entry) (pos : Nat),
      writeEntries order pos (front ++ back) =
        ((writeEntries order pos front).1
            ++ (writeEntries order (pos + (writeEntries order pos front).2.length) back).1,
          (writeEntries order pos front).2
            ++ (writeEntries order (pos + (writeEntries order pos front).2.length) back).2)
  | [], back, pos => by simp [writeEntries]
  | e :: front, back, pos => by
    simp only [List.cons_append, writeEntries_cons, writeEntries_append order front back,
      List.length_append, List.append_assoc, Nat.add_assoc]

/-- A table is read if each of its records is, wherever its tail stands. -/
theorem filterMap_writeEntries {read : Bytes → Option Entry} {found : Entry → Entry} :
    ∀ {es : List Entry} {pos : Nat},
      (∀ e ∈ es, ∀ pos, data.Holds pos (writeEntry order pos e).2 →
        read (writeEntry order pos e).1 = some (found e)) →
      data.Holds pos (writeEntries order pos es).2 →
        ((writeEntries order pos es).1.chunks 12).filterMap read = es.map found
  | [], _, _, _ => by rw [writeEntries]; rfl
  | e :: es, pos, hread, hdata => by
    rw [writeEntries_cons] at hdata ⊢
    rw [Bytes.chunks_append (by decide) (length_writeEntry order pos e),
      List.filterMap_cons_some (hread e List.mem_cons_self pos hdata.left),
      filterMap_writeEntries (fun e' he' => hread e' (List.mem_cons_of_mem _ he')) hdata.right,
      List.map_cons]

/-- A directory is its count, its table, an empty link, and what stands behind. -/
theorem writeDirectory_eq (order : ByteOrder) (start : Nat) (es : List Entry) :
    writeDirectory order start es =
      order.put16 (UInt16.ofNat es.length) ++
        ((writeEntries order (start + 2 + es.length * 12 + 4) es).1 ++
          (List.replicate 4 0 ++ (writeEntries order (start + 2 + es.length * 12 + 4) es).2)) := by
  simp only [writeDirectory, List.append_assoc]

/-- **A directory is read where it was written, if each of its entries is,** and as far as its
count goes. -/
theorem readDirectory_writeDirectory {levels start : Nat} {es : List Entry}
    {found : Entry → Entry}
    (hread : ∀ e ∈ es, ∀ pos, data.Holds pos (writeEntry order pos e).2 →
      readEntry (readDirectory order data levels) order data (writeEntry order pos e).1 =
        some (found e))
    (hdata : data.Holds start (writeDirectory order start es)) :
    readDirectory order data (levels + 1) start =
      some ((es.map found).take (es.length % UInt16.size)) := by
  have hcount : (UInt16.ofNat es.length).toNat = es.length % UInt16.size := UInt16.toNat_ofNat'
  have hless : es.length % UInt16.size ≤ es.length := Nat.mod_le ..
  generalize es.length % UInt16.size = n at hcount hless ⊢
  -- The count says how many records are in front; what they point at stands in front, too.
  have hfront : (es.take n).length = n := List.length_take_of_le hless
  have hentries := writeEntries_append order (es.take n) (es.drop n)
    (start + 2 + es.length * 12 + 4)
  rw [List.take_append_drop] at hentries
  have hlength := length_writeEntries order es (start + 2 + es.length * 12 + 4)
  rw [writeDirectory_eq] at hdata
  have hhead := hdata.left.slice?
  have htable := hdata.right.left
  have htail := hdata.right.right.right
  rw [ByteOrder.length_put16] at hhead htable htail
  rw [hlength, List.length_replicate] at htail
  rw [hentries] at htable htail
  have htable := htable.left.slice?
  rw [length_writeEntries, hfront] at htable
  have htableAt : tableAt order data start =
      some ((writeEntries order (start + 2 + es.length * 12 + 4) (es.take n)).1.chunks 12) := by
    simp only [tableAt, hhead, Option.bind_eq_bind, Option.bind_some, ByteOrder.get16_put16, hcount,
      htable]
    rfl
  rw [readDirectory, htableAt, Option.map_some,
    filterMap_writeEntries (fun e he => hread e (List.mem_of_mem_take he)) htail.left,
    List.map_take]

/-- **An entry is read where it was written,** with every directory in it cut to its count. -/
theorem readEntry_writeEntry {levels : Nat} {e : Entry} (hwf : e.WellFormed levels)
    (hshort : data.length < UInt32.size) {pos : Nat}
    (hdata : data.Holds pos (writeEntry order pos e).2) :
    readEntry (readDirectory order data levels) order data (writeEntry order pos e).1 =
      some e.cut := by
  -- On the nesting: what a pointer leads to stands in `data`, so its offset fits 32 bits.
  induction hwf generalizing pos with
  | @value levels tag kind count bytes hplain hfull =>
    rw [Entry.cut_value]
    by_cases h : bytes.length ≤ 4
    · have hfull := hfull (Nat.lt_of_le_of_lt h (by decide))
      have hfield : (bytes ++ List.replicate (4 - bytes.length) 0).length = 4 := by
        rw [List.length_append, List.length_replicate]
        omega
      rw [writeEntry_short h, readEntry_record hfield, hplain, if_neg Bool.false_ne_true,
        if_pos (hfull ▸ h), ← hfull, List.take_left]
    · rw [writeEntry_long h] at hdata ⊢
      have hbytes := hdata.right
      rw [List.length_replicate] at hbytes
      have hend := hbytes.end_le
      have hfull := hfull (by omega)
      have hoffset : (UInt32.ofNat (pos + pos % 2)).toNat = pos + pos % 2 :=
        UInt32.toNat_ofNat_of_lt' (by omega)
      rw [readEntry_record (order.length_put32 _), hplain, if_neg Bool.false_ne_true,
        if_neg (hfull ▸ h), ByteOrder.get32_put32, hoffset, ← hfull, hbytes.slice?, Option.map_some]
  | @directory levels tag kind entries hpointer _ ih =>
    rw [writeEntry_directory] at hdata ⊢
    have hdirectory := hdata.right
    rw [List.length_replicate] at hdirectory
    have hread := readDirectory_writeDirectory (fun e he pos hpos => ih e he hpos) hdirectory
    have hoffset : (UInt32.ofNat (pos + pos % 2)).toNat = pos + pos % 2 := by
      have hend := hdirectory.end_le
      rw [writeDirectory_eq, List.length_append, ByteOrder.length_put16] at hend
      exact UInt32.toNat_ofNat_of_lt' (by omega)
    rw [readEntry_record (order.length_put32 _), hpointer, if_pos rfl, ByteOrder.get32_put32,
      hoffset, hread, Option.map_some, Entry.cut_directory, Entry.cutTable]

/-! ### Blocks -/

/-- A marker that was put in front is taken off. -/
theorem unmarked_marker_append (data : Bytes) : unmarked (marker ++ data) = data := by
  rw [unmarked, if_pos (by rw [List.isPrefixOf_iff_prefix]; exact List.prefix_append ..),
    List.drop_left]

/-- A block is read as its main directory is. -/
theorem parse_marker_append {body : Bytes} {es : List Entry}
    (hdata : data = orderMark order ++ (order.put16 42 ++ (order.put32 8 ++ body)))
    (hread : readDirectory order data (maxDepth + 1) 8 = some es) :
    parse (marker ++ data) = .ok ⟨order, es⟩ := by
  have hmark : (orderMark order).length = 2 := by cases order <;> decide
  have h2 : data.drop 2 = order.put16 42 ++ (order.put32 8 ++ body) := by
    rw [hdata, List.drop_left' hmark]
  have h4 : data.drop 4 = order.put32 8 ++ body := by
    rw [show 4 = 2 + 2 from rfl, ← List.drop_drop, h2, List.drop_left' (order.length_put16 42)]
  have hlong : ¬data.length < 8 := by
    rw [hdata]
    simp only [List.length_append, hmark, ByteOrder.length_put16, ByteOrder.length_put32]
    omega
  have horder : orderOf data = some order := by
    rw [orderOf, hdata, List.take_left' hmark]
    cases order <;> decide
  simp only [parse, unmarked_marker_append, if_neg hlong, horder, h2, h4,
    List.take_left' (order.length_put16 42), List.take_left' (order.length_put32 8),
    ByteOrder.get16_put16, ByteOrder.get32_put32]
  rw [show (8 : UInt32).toNat = 8 from rfl, hread]
  rfl

/-- **A well-formed block, written and read, is itself in tag order,** every directory cut to its
count. -/
theorem parse_toBytes_cut {exif : Exif} (hwf : AllWellFormed maxDepth exif.entries)
    (hshort : exif.toTiff.length < UInt32.size) :
    parse exif.toBytes = .ok exif.normalised.cut := by
  have hdata : exif.toTiff = orderMark exif.order ++ (exif.order.put16 42 ++
      (exif.order.put32 8 ++ writeDirectory exif.order 8 exif.normalised.entries)) := by
    simp only [toTiff, List.append_assoc]
  have hholds : Bytes.Holds exif.toTiff 8
      (writeDirectory exif.order 8 exif.normalised.entries) := by
    refine ⟨orderMark exif.order ++ (exif.order.put16 42 ++ exif.order.put32 8), [], ?_, ?_⟩
    · simp only [hdata, List.append_assoc, List.append_nil]
    · simp only [List.length_append, ByteOrder.length_put16, ByteOrder.length_put32]
      cases exif.order <;> decide
  exact parse_marker_append hdata <| readDirectory_writeDirectory
    (fun e he _ hpos => readEntry_writeEntry (hwf.normalised e he) hshort hpos) hholds

/-- **A well-formed block whose counts fit, written and read, is itself in tag order.** -/
theorem parse_toBytes {exif : Exif} (hwf : AllWellFormed maxDepth exif.entries)
    (hcounts : exif.CountsFit) (hshort : exif.toTiff.length < UInt32.size) :
    parse exif.toBytes = .ok exif.normalised := by
  rw [parse_toBytes_cut hwf hshort, cut_eq_self_iff.2 (countsFit_normalised_iff.2 hcounts)]

/-- Blocks are written in tag order anyway. -/
theorem toBytes_normalised (exif : Exif) : exif.normalised.toBytes = exif.toBytes := by
  rw [toBytes, toBytes, toTiff, toTiff, normalised_normalised]
  rfl

/-- **The round trip of a block that was read and edited.**  Written and read again it is the same
block with every directory in tag order, and writing that gives the same bytes; the only conditions
are that counts fit 16 bits and offsets 32. -/
theorem parse_toBytes_edits {blob : Bytes} {exif : Exif} (hparse : parse blob = .ok exif)
    (edits : List Edit) (hcounts : (edits.foldl Edit.apply exif).CountsFit)
    (hshort : (edits.foldl Edit.apply exif).toTiff.length < UInt32.size) :
    ∃ again, parse (edits.foldl Edit.apply exif).toBytes = .ok again ∧
      InTagOrder (edits.foldl Edit.apply exif) again ∧
      again.toBytes = (edits.foldl Edit.apply exif).toBytes :=
  ⟨_, parse_toBytes (wellFormed_edits edits (wellFormed_of_parse hparse)) hcounts hshort,
    inTagOrder_normalised _, toBytes_normalised _⟩

/-- A block whose pointer stands in front of smaller tags and leads to a directory that is out of
order too. -/
def scrambled : Bytes :=
  [0x4D, 0x4D, 0, 42, 0, 0, 0, 8, 0, 3,
    0x87, 0x69, 0, 4, 0, 0, 0, 1, 0, 0, 0, 56,
    0x01, 0x12, 0, 3, 0, 0, 0, 1, 0, 6, 0, 0,
    0x01, 0x0F, 0, 2, 0, 0, 0, 6, 0, 0, 0, 50, 0, 0, 0, 0,
    0x43, 0x61, 0x6E, 0x6F, 0x6E, 0, 0, 2,
    0xA0, 0x03, 0, 4, 0, 0, 0, 1, 0, 0, 1, 224,
    0xA0, 0x02, 0, 4, 0, 0, 0, 1, 0, 0, 2, 128, 0, 0, 0, 0]

/-- The block read, turned and cropped. -/
theorem parse_toBytes_edits_scrambled :
    let exif : Exif := ⟨.big, [
      .directory 0x8769 4 [.value 0xA003 4 1 [0, 0, 1, 224], .value 0xA002 4 1 [0, 0, 2, 128]],
      .value 0x0112 3 1 [0, 6], .value 0x010F 2 6 [0x43, 0x61, 0x6E, 0x6F, 0x6E, 0]]⟩
    let edits : List Edit := [.orientation 1, .dimensions 320 200]
    parse scrambled = .ok exif ∧ (edits.foldl Edit.apply exif).CountsFit ∧
      (edits.foldl Edit.apply exif).toTiff.length < UInt32.size ∧
      ∃ again, parse (edits.foldl Edit.apply exif).toBytes = .ok again ∧
        InTagOrder (edits.foldl Edit.apply exif) again ∧
        again.toBytes = (edits.foldl Edit.apply exif).toBytes := by
  intro exif edits
  have hparse : parse scrambled = .ok exif := by
    have hunmarked : unmarked scrambled = scrambled := by decide
    have horder : orderOf scrambled = some .big := by decide
    simp only [parse, hunmarked, horder]
    rfl
  have hedited : edits.foldl Edit.apply exif = ⟨.big, [
      .directory 0x8769 4 [.value 0xA003 4 1 [0, 0, 0, 200], .value 0xA002 4 1 [0, 0, 1, 64]],
      .value 0x0112 3 1 [0, 1], .value 0x010F 2 6 [0x43, 0x61, 0x6E, 0x6F, 0x6E, 0]]⟩ := rfl
  have hcounts : (edits.foldl Edit.apply exif).CountsFit := by
    rw [hedited]
    refine .directory 0 0 (by decide) ?_
    simp only [List.forall_mem_cons, List.not_mem_nil, false_implies, implies_true, and_true]
    refine ⟨.directory _ _ (by decide) ?_, .value .., .value ..⟩
    simp only [List.forall_mem_cons, List.not_mem_nil, false_implies, implies_true, and_true]
    exact ⟨.value .., .value ..⟩
  have hsorted : (edits.foldl Edit.apply exif).normalised = ⟨.big, [
      .value 0x010F 2 6 [0x43, 0x61, 0x6E, 0x6F, 0x6E, 0], .value 0x0112 3 1 [0, 1],
      .directory 0x8769 4 [.value 0xA002 4 1 [0, 0, 1, 64], .value 0xA003 4 1 [0, 0, 0, 200]]]⟩
      := by
    rw [hedited]
    simp [normalised, Entry.sortedAll, Entry.sortByTag, List.mergeSort,
      List.MergeSort.Internal.splitInTwo, Entry.tag]
  have hshort : (edits.foldl Edit.apply exif).toTiff.length < UInt32.size := by
    rw [toTiff, hsorted]
    decide
  exact ⟨hparse, hcounts, hshort, parse_toBytes_edits hparse edits hcounts hshort⟩

end Exif

end Raster
