/-
# The shape of a block that was read

Reading makes entries of one shape only: a directory stands under a pointer tag
and nothing else does, a value has as many bytes as its type and count say, and
directories nest no deeper than reading goes (`Entry.WellFormed`). Edits of
orientation, resolution and dimensions keep this shape (`wellFormed_edits`), and
so does putting directories in tag order (`Entry.WellFormed.sorted`).

A text of 4 GiB is the exception: its count does not fit the 32 bits that it has.
Nothing of this length is ever written, so the shape speaks of shorter values.
-/
import Raster.Exif.Tags
import Raster.Proofs.Bytes
import Raster.Proofs.Exif.TagOrder

namespace Raster

namespace Exif

/-- An entry as reading makes it, with at most `levels` levels of directories. -/
inductive Entry.WellFormed : Nat → Entry → Prop
  | value {levels : Nat} {tag kind : UInt16} {count : UInt32} {bytes : Bytes}
    (plain : isPointer tag = false)
    (full : bytes.length < UInt32.size → bytes.length = count.toNat * typeSize kind) :
    WellFormed levels (.value tag kind count bytes)
  | directory {levels : Nat} {tag kind : UInt16} {entries : List Entry}
    (pointer : isPointer tag = true) (each : ∀ e ∈ entries, WellFormed levels e) :
    WellFormed (levels + 1) (.directory tag kind entries)

/-- Entries as reading makes them. -/
def AllWellFormed (levels : Nat) (entries : List Entry) : Prop :=
  ∀ e ∈ entries, e.WellFormed levels

/-! ### Reading -/

/-- A table is a piece of the block, behind a count of 16 bits. -/
theorem exists_of_tableAt {order : ByteOrder} {data : Bytes} {offset : Nat} {table : List Bytes}
    (h : tableAt order data offset = some table) : ∃ (count : UInt16) (body : Bytes),
      data.slice? (offset + 2) (count.toNat * 12) = some body ∧ body.chunks 12 = table := by
  simp only [tableAt, Option.bind_eq_bind, Option.bind_eq_some_iff, Option.pure_def,
    Option.some.injEq] at h
  obtain ⟨head, -, body, hbody, htable⟩ := h
  exact ⟨order.get16 head, body, hbody, htable⟩

/-- The pieces of a table have twelve bytes each. -/
theorem length_of_mem_tableAt {order : ByteOrder} {data : Bytes} {offset : Nat} {table : List Bytes}
    (h : tableAt order data offset = some table) : ∀ raw ∈ table, raw.length = 12 := by
  obtain ⟨count, body, -, rfl⟩ := exists_of_tableAt h
  exact fun raw hraw => Bytes.length_of_mem_chunks hraw

/-- A table has as many pieces as its count can say, and lies in the block. -/
theorem length_of_tableAt {order : ByteOrder} {data : Bytes} {offset : Nat} {table : List Bytes}
    (h : tableAt order data offset = some table) :
    table.length ≤ 65535 ∧ offset + 2 + table.length * 12 ≤ data.length := by
  obtain ⟨count, body, hbody, rfl⟩ := exists_of_tableAt h
  have hcount := count.toNat_lt
  have hlength := Bytes.length_of_slice? hbody
  rw [Bytes.chunks_eq, List.length_map, List.length_range, hlength,
    Nat.mul_div_cancel _ (by decide)]
  rw [Bytes.slice?_eq] at hbody
  split at hbody
  · omega
  · cases hbody

/-- What is read from a record is well-formed if the directories below are. -/
theorem wellFormed_of_readEntry {sub : Nat → Option (List Entry)} {order : ByteOrder}
    {data raw : Bytes} {levels : Nat} {e : Entry}
    (hsub : ∀ offset es, sub offset = some es →
      ∃ below, levels = below + 1 ∧ AllWellFormed below es)
    (hraw : raw.length = 12) (h : readEntry sub order data raw = some e) : e.WellFormed levels := by
  simp only [readEntry] at h
  split at h
  · rename_i hpointer
    obtain ⟨es, hes, rfl⟩ := Option.map_eq_some_iff.1 h
    obtain ⟨below, rfl, hall⟩ := hsub _ es hes
    exact .directory hpointer hall
  · rename_i hplain
    have hplain := Bool.eq_false_iff.2 hplain
    split at h
    · obtain rfl := Option.some.inj h
      refine .value hplain fun _ => ?_
      rw [List.length_take, List.length_drop]
      omega
    · obtain ⟨bytes, hbytes, rfl⟩ := Option.map_eq_some_iff.1 h
      exact .value hplain fun _ => Bytes.length_of_slice? hbytes

/-- **What is read as a directory is well-formed.** -/
theorem wellFormed_of_readDirectory {order : ByteOrder} {data : Bytes} :
    ∀ {levels offset : Nat} {es : List Entry},
      readDirectory order data (levels + 1) offset = some es → AllWellFormed levels es := by
  intro levels
  induction levels with
  | zero =>
    intro offset es h e he
    obtain ⟨table, htable, rfl⟩ := Option.map_eq_some_iff.1 h
    obtain ⟨raw, hraw, hentry⟩ := List.mem_filterMap.1 he
    exact wellFormed_of_readEntry (fun _ _ hnone => by simp [readDirectory] at hnone)
      (length_of_mem_tableAt htable raw hraw) hentry
  | succ levels ih =>
    intro offset es h e he
    obtain ⟨table, htable, rfl⟩ := Option.map_eq_some_iff.1 h
    obtain ⟨raw, hraw, hentry⟩ := List.mem_filterMap.1 he
    exact wellFormed_of_readEntry (fun _ _ hsome => ⟨levels, rfl, ih hsome⟩)
      (length_of_mem_tableAt htable raw hraw) hentry

/-- The offset of the main directory, behind the mark and the number 42. -/
def mainOffset (order : ByteOrder) (data : Bytes) : Nat :=
  (order.get32 ((data.drop 4).take 4)).toNat

/-- Reading a block is reading its main directory. -/
theorem readDirectory_of_parse {blob : Bytes} {exif : Exif} (h : parse blob = .ok exif) :
    readDirectory exif.order (unmarked blob) (maxDepth + 1)
      (mainOffset exif.order (unmarked blob)) = some exif.entries := by
  simp only [parse] at h
  split at h
  · cases h
  · split at h
    · cases h
    · split at h
      · cases h
      · split at h
        · rename_i hread
          obtain rfl := Except.ok.inj h
          exact hread
        · cases h

/-- **What is read as a block is well-formed.** -/
theorem wellFormed_of_parse {blob : Bytes} {exif : Exif} (h : parse blob = .ok exif) :
    AllWellFormed maxDepth exif.entries :=
  wellFormed_of_readDirectory (readDirectory_of_parse h)

/-! ### Editing -/

/-- Putting an entry adds no other. -/
theorem mem_put {entry e : Entry} {es : List Entry} (h : e ∈ put entry es) :
    e = entry ∨ e ∈ es := by
  induction es with
  | nil => exact .inl (List.mem_singleton.1 h)
  | cons a es ih =>
    rw [put] at h
    split at h
    · exact (List.mem_cons.1 h).imp_right (List.mem_cons_of_mem _)
    · rcases List.mem_cons.1 h with rfl | h
      · exact .inr List.mem_cons_self
      · exact (ih h).imp_right (List.mem_cons_of_mem _)

/-- So putting a well-formed entry leaves a directory well-formed. -/
theorem AllWellFormed.put {levels : Nat} {entry : Entry} {es : List Entry}
    (hentry : entry.WellFormed levels) (hes : AllWellFormed levels es) :
    AllWellFormed levels (put entry es) := by
  intro e he
  rcases mem_put he with rfl | he
  · exact hentry
  · exact hes e he

/-- Or replacing one by it. -/
theorem AllWellFormed.putIfThere {levels : Nat} {entry : Entry} {es : List Entry}
    (hentry : entry.WellFormed levels) (hes : AllWellFormed levels es) :
    AllWellFormed levels (putIfThere entry es) := by
  rw [Exif.putIfThere]
  split
  · exact hes.put hentry
  · exact hes

/-- Or dropping a tag. -/
theorem AllWellFormed.drop {levels : Nat} {tag : UInt16} {es : List Entry}
    (hes : AllWellFormed levels es) : AllWellFormed levels (drop tag es) :=
  fun e he => hes e (List.mem_filter.1 he).1

/-- An edit of one directory that keeps entries well-formed there keeps them so below a pointer. -/
theorem AllWellFormed.editBelow {f : List Entry → Option (List Entry)}
    (hf : ∀ levels es es', f es = some es' → AllWellFormed levels es → AllWellFormed levels es')
    {tag : UInt16} {levels : Nat} :
    ∀ {es es' : List Entry}, Exif.editBelow tag f es = some es' → AllWellFormed levels es →
      AllWellFormed levels es'
  | [], _, h, _ => nomatch h
  | e :: rest, es', h, hes => by
    rw [AllWellFormed, List.forall_mem_cons] at hes
    unfold Exif.editBelow at h
    split at h
    · split at h
      · obtain ⟨below, hbelow, rfl⟩ := Option.map_eq_some_iff.1 h
        refine List.forall_mem_cons.2 ⟨?_, hes.2⟩
        cases hes.1 with
        | directory hpointer hall => exact .directory hpointer (hf _ _ _ hbelow hall)
      · cases h
    · obtain ⟨rest', hrest, rfl⟩ := Option.map_eq_some_iff.1 h
      exact List.forall_mem_cons.2 ⟨hes.1, AllWellFormed.editBelow hf hrest hes.2⟩

/-- An edit that leaves directories well-formed can be made at any depth. -/
theorem AllWellFormed.editAt {f : List Entry → List Entry}
    (hf : ∀ levels es, AllWellFormed levels es → AllWellFormed levels (f es)) :
    ∀ {path : List UInt16} {levels : Nat} {es es' : List Entry},
      Exif.editAt f path es = some es' → AllWellFormed levels es → AllWellFormed levels es'
  | [], levels, es, es', h, hes => by
    obtain rfl := Option.some.inj h
    exact hf levels es hes
  | _ :: _, _, _, _, h, hes =>
    AllWellFormed.editBelow (fun _ _ _ hsome hall => AllWellFormed.editAt hf hsome hall) h hes

/-- And so in every known directory. -/
theorem AllWellFormed.edit {f : List Entry → List Entry} {exif : Exif} {levels : Nat}
    (hf : ∀ levels es, AllWellFormed levels es → AllWellFormed levels (f es)) (s : Section)
    (hes : AllWellFormed levels exif.entries) : AllWellFormed levels (exif.edit s f).entries := by
  rw [Exif.edit]
  split
  · rename_i heq
    exact AllWellFormed.editAt hf heq hes
  · exact hes

/-- The entries that edits write are values, and those are well-formed under every tag that is no
pointer. -/
theorem wellFormed_shortEntry {order : ByteOrder} {tag n : UInt16} {levels : Nat}
    (h : isPointer tag = false) : (shortEntry order tag n).WellFormed levels :=
  .value h fun _ => order.length_put16 n

theorem wellFormed_longEntry {order : ByteOrder} {tag : UInt16} {n : UInt32} {levels : Nat}
    (h : isPointer tag = false) : (longEntry order tag n).WellFormed levels :=
  .value h fun _ => order.length_put32 n

theorem wellFormed_rationalEntry {order : ByteOrder} {tag : UInt16} {v : Float} {levels : Nat}
    (h : isPointer tag = false) : (rationalEntry order tag v).WellFormed levels :=
  .value h fun _ => by rw [List.length_append, order.length_put32, order.length_put32]; rfl

/-- A text too: its count is that of its bytes, which a word can say. -/
theorem wellFormed_textEntry {tag : UInt16} {text : String} {levels : Nat}
    (h : isPointer tag = false) : (textEntry tag text).WellFormed levels := by
  refine .value h fun hshort => ?_
  rw [UInt32.toNat_ofNat_of_lt' hshort]
  exact (Nat.mul_one _).symm

/-- An edit of a block. -/
inductive Edit where
  | orientation (value : UInt16)
  | resolution (xres yres : Float) (unit : ResolutionUnit)
  | dimensions (width height : UInt32)

/-- The block after an edit. -/
def Edit.apply (exif : Exif) : Edit → Exif
  | orientation value => exif.setOrientation value
  | resolution xres yres unit => exif.setResolution xres yres unit
  | dimensions width height => exif.setDimensions width height

/-- **Edits leave a block as reading makes it.** -/
theorem AllWellFormed.apply {exif : Exif} {levels : Nat} (hes : AllWellFormed levels exif.entries)
    (edit : Edit) : AllWellFormed levels (edit.apply exif).entries := by
  cases edit with
  | orientation value => exact hes.put (wellFormed_shortEntry rfl)
  | resolution xres yres unit =>
    exact ((hes.put (wellFormed_rationalEntry rfl)).put (wellFormed_rationalEntry rfl)).put
      (wellFormed_shortEntry rfl)
  | dimensions width height =>
    exact hes.edit (fun _ _ hall => (hall.putIfThere (wellFormed_longEntry rfl)).putIfThere
      (wellFormed_longEntry rfl)) .exif

/-- **Edits keep a block well-formed.** -/
theorem wellFormed_edits {levels : Nat} :
    ∀ (edits : List Edit) {exif : Exif}, AllWellFormed levels exif.entries →
      AllWellFormed levels (edits.foldl Edit.apply exif).entries
  | [], _, hes => hes
  | edit :: edits, _, hes => wellFormed_edits edits (hes.apply edit)

/-! ### Putting in tag order -/

/-- Order does not come into it. -/
theorem Entry.WellFormed.sorted {levels : Nat} {e : Entry} (h : e.WellFormed levels) :
    e.sorted.WellFormed levels := by
  induction h with
  | value plain full =>
    rw [Entry.sorted_value]
    exact .value plain full
  | directory pointer each ih =>
    rw [Entry.sorted_directory]
    refine .directory pointer fun e he => ?_
    obtain ⟨e', he', rfl⟩ := List.mem_map.1 (Entry.mem_sortByTag.1 he)
    exact ih e' he'

/-- So a block in tag order is as reading makes it. -/
theorem AllWellFormed.normalised {levels : Nat} {exif : Exif}
    (hes : AllWellFormed levels exif.entries) : AllWellFormed levels exif.normalised.entries := by
  rw [entries_normalised]
  intro e he
  obtain ⟨e', he', rfl⟩ := List.mem_map.1 (Entry.mem_sortByTag.1 he)
  exact (hes e' he').sorted

end Exif

end Raster
