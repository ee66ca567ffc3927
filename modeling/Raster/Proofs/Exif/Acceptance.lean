/-
# Which blocks are read, and which of their entries

A block can go wrong in many places. Only two of them matter for whether it is read at all: its
first eight bytes and the main directory's own table. Everything else is a matter of one entry:

| wrong | consequence |
| --- | --- |
| length, byte order, 42; the main table ends outside the block | no result |
| a pointer's table ends outside the block | this entry is left out |
| a value of more than four bytes ends outside the block | this entry is left out |
| a type is unknown, pointers repeat or lead back | none |

So there is a result exactly where the block is `Acceptable`, and its entries are what the rows of
the main table give that have their directory or value in the block (`parse_eq_ok_iff`). The same
holds of the directories below (`readDirectory_eq_some_iff`).
-/
import Mathlib.Data.List.Forall2
import Raster.Proofs.Exif.Shape

namespace Raster

/-- A map that leaves some elements out relates those that stay to what they become, in order. -/
theorem filterMap_eq_iff_forall₂ {α β : Type} {f : α → Option β} {p : α → Prop} [DecidablePred p]
    {R : α → β → Prop} : ∀ {l : List α} {bs : List β}, (∀ a ∈ l, (f a).isSome ↔ p a) →
      (∀ a ∈ l, p a → ∀ b, f a = some b ↔ R a b) →
        (l.filterMap f = bs ↔ List.Forall₂ R (l.filter p) bs)
  | [], bs, _, _ => by
    rw [List.filterMap_nil, List.filter_nil, List.forall₂_nil_left_iff]
    exact eq_comm
  | a :: l, bs, hp, hR => by
    rw [List.forall_mem_cons] at hp hR
    have ih : ∀ bs, l.filterMap f = bs ↔ List.Forall₂ R (l.filter p) bs :=
      fun bs => filterMap_eq_iff_forall₂ hp.2 hR.2
    cases hfa : f a with
    | none =>
      have hnot : ¬p a := fun ha => by simpa [hfa] using hp.1.2 ha
      rw [List.filterMap_cons_none hfa, List.filter_cons_of_neg (by simpa using hnot), ih]
    | some b =>
      have ha : p a := hp.1.1 (by rw [hfa]; rfl)
      rw [List.filterMap_cons_some hfa, List.filter_cons_of_pos (by simpa using ha),
        List.forall₂_cons_left_iff]
      constructor
      · rintro rfl
        exact ⟨b, _, (hR.1 ha b).1 hfa, (ih _).1 rfl, rfl⟩
      · rintro ⟨b', bs', hb', hbs', rfl⟩
        obtain rfl := Option.some.inj (hfa.symm.trans ((hR.1 ha b').2 hb'))
        rw [(ih bs').2 hbs']

namespace ByteOrder

/-- The 16-bit number at an offset. -/
def word16At (order : ByteOrder) (data : Bytes) (pos : Nat) : UInt16 :=
  order.get16 ((data.drop pos).take 2)

/-- The 32-bit number at an offset. -/
def word32At (order : ByteOrder) (data : Bytes) (pos : Nat) : UInt32 :=
  order.get32 ((data.drop pos).take 4)

end ByteOrder

namespace Exif

variable {order : ByteOrder} {data : Bytes}

/-! ### Tables as they stand in a block -/

/-- How many entries the directory at an offset announces. -/
def announced (order : ByteOrder) (data : Bytes) (offset : Nat) : Nat :=
  (order.word16At data offset).toNat

/-- The count of the directory at an offset lies in the block, and so do twelve bytes for each
entry that it announces. -/
def HasTable (order : ByteOrder) (data : Bytes) (offset : Nat) : Prop :=
  offset + 2 ≤ data.length ∧ offset + 2 + announced order data offset * 12 ≤ data.length

instance (offset : Nat) : Decidable (HasTable order data offset) :=
  inferInstanceAs (Decidable (_ ∧ _))

/-- A row of a table: twelve bytes, whatever they mean. -/
structure Row where
  /-- Where the row stands in the block. -/
  pos : Nat
  tag : UInt16
  kind : UInt16
  count : UInt32
  /-- The offset that its last four bytes are, where they are one. -/
  target : Nat

/-- The row at an offset. -/
def rowAt (order : ByteOrder) (data : Bytes) (pos : Nat) : Row where
  pos := pos
  tag := order.word16At data pos
  kind := order.word16At data (pos + 2)
  count := order.word32At data (pos + 4)
  target := (order.word32At data (pos + 8)).toNat

/-- The rows of the table of the directory at an offset. -/
def rowsAt (order : ByteOrder) (data : Bytes) (offset : Nat) : List Row :=
  (List.range (announced order data offset)).map fun i => rowAt order data (offset + 2 + i * 12)

namespace Row

/-- Bytes of the row's value. -/
def size (row : Row) : Nat := row.count.toNat * typeSize row.kind

/-- Where the value stands: in the row's last four bytes or, where it is longer, at the offset. -/
def place (row : Row) : Nat := if row.size ≤ 4 then row.pos + 8 else row.target

/-- The bytes of the row's value. -/
def value (data : Bytes) (row : Row) : Bytes := (data.drop row.place).take row.size

/-- The table of the row's directory lies in the block, or its value does. -/
def Fits (order : ByteOrder) (data : Bytes) (row : Row) : Prop :=
  if isPointer row.tag then HasTable order data row.target
  else row.size ≤ 4 ∨ row.target + row.size ≤ data.length

instance (row : Row) : Decidable (row.Fits order data) :=
  inferInstanceAs (Decidable (if isPointer row.tag then HasTable order data row.target
    else row.size ≤ 4 ∨ row.target + row.size ≤ data.length))

/-- The entry that is listed for a row: under a pointer's tag the directory that is read at its
offset, else the bytes of its value. -/
def Gives (order : ByteOrder) (data : Bytes) (levels : Nat) (row : Row) (e : Entry) : Prop :=
  if isPointer row.tag then
    ∃ es, readDirectory order data levels row.target = some es ∧
      e = .directory row.tag row.kind es
  else e = .value row.tag row.kind row.count (row.value data)

end Row

/-! ### Reading a table row by row -/

/-- A part of twelve bytes is a part of the block. -/
theorem take_drop_row (data : Bytes) {pos k n : Nat} (h : k + n ≤ 12) :
    ((((data.drop pos).take 12).drop k).take n) = (data.drop (pos + k)).take n := by
  rw [List.drop_take, List.take_take, List.drop_drop, Nat.min_eq_left (by omega)]

/-- What is made of a record, by the fields of its row: a directory, a value inside the record, or a
value elsewhere. -/
theorem readEntry_rowAt (sub : Nat → Option (List Entry)) {pos : Nat} {row : Row}
    (hrow : row = rowAt order data pos) :
    readEntry sub order data ((data.drop pos).take 12) =
      if isPointer row.tag then (sub row.target).map (.directory row.tag row.kind)
      else if row.size ≤ 4 then some (.value row.tag row.kind row.count (row.value data))
      else (data.slice? row.target row.size).map (.value row.tag row.kind row.count) := by
  have htag : order.get16 (((data.drop pos).take 12).take 2) = row.tag := by
    rw [List.take_take, hrow]
    rfl
  have hkind : order.get16 ((((data.drop pos).take 12).drop 2).take 2) = row.kind := by
    rw [take_drop_row data (by decide), hrow]
    rfl
  have hcount : order.get32 ((((data.drop pos).take 12).drop 4).take 4) = row.count := by
    rw [take_drop_row data (by decide), hrow]
    rfl
  have htarget : (order.get32 ((((data.drop pos).take 12).drop 8).take 4)).toNat = row.target := by
    rw [take_drop_row data (by decide), hrow]
    rfl
  have hvalue : row.size ≤ 4 →
      (((data.drop pos).take 12).drop 8).take row.size = row.value data := by
    intro hshort
    rw [take_drop_row data (by omega), Row.value, Row.place, if_pos hshort, hrow]
    rfl
  simp only [readEntry, htag, hkind, hcount, htarget]
  split
  · rfl
  · exact ite_congr rfl (fun hshort => by rw [← hvalue hshort, Row.size]) fun _ => rfl

/-- A directory has a table exactly where that lies in the block. -/
theorem tableAt_eq (order : ByteOrder) (data : Bytes) (offset : Nat) :
    tableAt order data offset =
      if HasTable order data offset then
        some ((List.range (announced order data offset)).map fun i =>
          (data.drop (offset + 2 + i * 12)).take 12)
      else none := by
  rw [tableAt, Bytes.slice?_eq]
  by_cases hhead : offset + 2 ≤ data.length
  · rw [if_pos hhead]
    simp only [Option.bind_eq_bind, Option.bind_some, Option.pure_def, Bytes.slice?_eq]
    by_cases htable : offset + 2 + announced order data offset * 12 ≤ data.length
    · have hlength : ((data.drop (offset + 2)).take (announced order data offset * 12)).length / 12
          = announced order data offset := by
        rw [List.length_take, List.length_drop, Nat.min_eq_left (by omega),
          Nat.mul_div_cancel _ (by decide)]
      rw [if_pos (show HasTable order data offset from ⟨hhead, htable⟩)]
      unfold announced ByteOrder.word16At at htable hlength ⊢
      rw [if_pos htable, Option.bind_some, Bytes.chunks_eq, hlength]
      refine congrArg some (List.map_congr_left fun i hi => ?_)
      have hi := List.mem_range.1 hi
      rw [List.drop_take, List.take_take, List.drop_drop, Nat.min_eq_left (by omega)]
    · rw [if_neg fun h : HasTable order data offset => htable h.2]
      unfold announced ByteOrder.word16At at htable
      rw [if_neg htable, Option.bind_none]
  · rw [if_neg hhead, if_neg fun h : HasTable order data offset => hhead h.1]
    rfl

/-- With levels left, a directory can be read exactly where its table is whole; what its entries say
cannot spoil it. -/
theorem isSome_readDirectory {levels offset : Nat} :
    (readDirectory order data (levels + 1) offset).isSome ↔ HasTable order data offset := by
  rw [readDirectory, Option.isSome_map, tableAt_eq]
  split <;> simp_all

/-- A row is read exactly where its directory or its value lies in the block. -/
theorem isSome_readEntry {levels : Nat} (pos : Nat) :
    (readEntry (readDirectory order data (levels + 1)) order data ((data.drop pos).take 12)).isSome
      ↔ (rowAt order data pos).Fits order data := by
  rw [readEntry_rowAt _ rfl, Row.Fits]
  split
  · rw [Option.isSome_map, isSome_readDirectory]
  · split
    · rename_i hshort
      simp only [Option.isSome_some, hshort, true_or]
    · rename_i hlong
      rw [Option.isSome_map, Bytes.slice?_eq]
      split <;> simp_all

/-- What is read of a row whose directory or value lies in the block. -/
theorem readEntry_eq_some_iff {levels pos : Nat} (hfits : (rowAt order data pos).Fits order data)
    (e : Entry) :
    readEntry (readDirectory order data levels) order data ((data.drop pos).take 12) = some e ↔
      (rowAt order data pos).Gives order data levels e := by
  rw [readEntry_rowAt _ rfl, Row.Gives]
  rw [Row.Fits] at hfits
  split
  · rw [Option.map_eq_some_iff]
    exact exists_congr fun es => and_congr_right' eq_comm
  · rename_i hplain
    rw [if_neg hplain] at hfits
    split
    · rw [Option.some.injEq]
      exact eq_comm
    · rename_i hlong
      have hend := hfits.resolve_left hlong
      rw [Bytes.slice?_eq, if_pos hend, Option.map_some, Option.some.injEq, Row.value, Row.place,
        if_neg hlong]
      exact eq_comm

/-- **A directory is read exactly where its own table lies in the block.**  It then has what its
rows give, in order, but for those whose directory or value lies outside. -/
theorem readDirectory_eq_some_iff {levels offset : Nat} {es : List Entry} :
    readDirectory order data (levels + 2) offset = some es ↔
      HasTable order data offset ∧
        List.Forall₂ (Row.Gives order data (levels + 1))
          ((rowsAt order data offset).filter (Row.Fits order data)) es := by
  have hrows : ((rowsAt order data offset).filter (Row.Fits order data)) =
      ((List.range (announced order data offset)).filter fun i =>
        (rowAt order data (offset + 2 + i * 12)).Fits order data).map fun i =>
          rowAt order data (offset + 2 + i * 12) := by
    rw [rowsAt, List.filter_map]
    rfl
  rw [readDirectory, tableAt_eq, hrows, List.forall₂_map_left_iff]
  by_cases htable : HasTable order data offset
  · rw [if_pos htable, Option.map_some, Option.some.injEq, List.filterMap_map, and_iff_right htable]
    exact filterMap_eq_iff_forall₂ (fun i _ => isSome_readEntry (offset + 2 + i * 12))
      fun i _ hfits e => readEntry_eq_some_iff hfits e
  · rw [if_neg htable]
    simp [htable]

/-! ### Blocks -/

/-- A block that can be read in a byte order: it has eight bytes, names the order, goes on with 42,
and its main directory's table lies in it. -/
structure Acceptable (order : ByteOrder) (data : Bytes) : Prop where
  long : 8 ≤ data.length
  marked : data.take 2 = orderMark order
  magic : order.word16At data 2 = 42
  table : HasTable order data (mainOffset order data)

/-- The first two bytes decide the byte order. -/
theorem orderOf_eq_some : orderOf data = some order ↔ data.take 2 = orderMark order := by
  have hmarks : Bytes.ofText "MM" ≠ Bytes.ofText "II" := by decide
  rw [orderOf]
  split
  · rename_i hbig
    cases order <;> simp [orderMark, hbig, hmarks]
  · rename_i hbig
    split
    · rename_i hlittle
      cases order <;> simp [orderMark, hlittle, hmarks.symm]
    · rename_i hlittle
      cases order <;> simp [orderMark, hbig, hlittle]

/-- A block is read where its first eight bytes are right and its main directory is read. -/
theorem parse_eq_ok {blob : Bytes} {exif : Exif} :
    parse blob = .ok exif ↔
      8 ≤ (unmarked blob).length ∧ (unmarked blob).take 2 = orderMark exif.order ∧
      exif.order.word16At (unmarked blob) 2 = 42 ∧
      readDirectory exif.order (unmarked blob) (maxDepth + 1)
        (mainOffset exif.order (unmarked blob)) = some exif.entries := by
  simp only [← orderOf_eq_some, parse]
  constructor
  · intro h
    have hread := h
    split at h
    · cases h
    · rename_i hlong
      split at h
      · cases h
      · rename_i order horder
        split at h
        · cases h
        · rename_i hmagic
          split at h
          · rename_i hentries
            obtain rfl := Except.ok.inj h
            exact ⟨by omega, horder, not_not.1 hmagic, hentries⟩
          · cases h
  · rintro ⟨hlong, horder, hmagic, hentries⟩
    have hmagic' : exif.order.get16 (((unmarked blob).drop 2).take 2) = 42 := hmagic
    have hentries' : readDirectory exif.order (unmarked blob) (maxDepth + 1)
        (exif.order.get32 (((unmarked blob).drop 4).take 4)).toNat = some exif.entries := hentries
    rw [if_neg (by omega), horder]
    simp only [hmagic', hentries', ne_eq, not_true_eq_false, if_false]

/-- **Which blocks are read, and as what.**  Behind its marker, if it has one, a block needs eight
bytes, a byte order, the number 42 and room for the table of the main directory, and nothing else.
What is read are the rows of that table, in order, but for those whose directory or value lies
outside the block; a value is read as just the bytes that the row names. -/
theorem parse_eq_ok_iff (blob : Bytes) :
    ((∃ exif, parse blob = .ok exif) ↔ ∃ order, Acceptable order (unmarked blob)) ∧
      ∀ exif, parse blob = .ok exif ↔
        Acceptable exif.order (unmarked blob) ∧
          List.Forall₂ (Row.Gives exif.order (unmarked blob) maxDepth)
            ((rowsAt exif.order (unmarked blob) (mainOffset exif.order (unmarked blob))).filter
              (Row.Fits exif.order (unmarked blob))) exif.entries := by
  refine ⟨⟨?_, ?_⟩, fun exif => ?_⟩
  · rintro ⟨exif, h⟩
    obtain ⟨hlong, hmark, hmagic, hread⟩ := parse_eq_ok.1 h
    exact ⟨exif.order, hlong, hmark, hmagic, (readDirectory_eq_some_iff.1 hread).1⟩
  · rintro ⟨order, hlong, hmark, hmagic, htable⟩
    obtain ⟨es, hes⟩ := Option.isSome_iff_exists.1 (isSome_readDirectory.2 htable)
    exact ⟨⟨order, es⟩, parse_eq_ok.2 ⟨hlong, hmark, hmagic, hes⟩⟩
  · rw [parse_eq_ok]
    constructor
    · rintro ⟨hlong, hmark, hmagic, hread⟩
      obtain ⟨htable, hrows⟩ := readDirectory_eq_some_iff.1 hread
      exact ⟨⟨hlong, hmark, hmagic, htable⟩, hrows⟩
    · rintro ⟨⟨hlong, hmark, hmagic, htable⟩, hrows⟩
      exact ⟨hlong, hmark, hmagic, readDirectory_eq_some_iff.2 ⟨htable, hrows⟩⟩

/-- A maker's name that should stand at offset 200 of 34 is left out, the orientation behind it is
read. -/
example :
    parse [0x4D, 0x4D, 0, 42, 0, 0, 0, 8, 0, 2,
      0x01, 0x0F, 0, 2, 0, 0, 0, 9, 0, 0, 0, 200,
      0x01, 0x12, 0, 3, 0, 0, 0, 1, 0, 6, 0, 0] = .ok ⟨.big, [.value 0x0112 3 1 [0, 6]]⟩ := by
  cbv

end Exif

end Raster
