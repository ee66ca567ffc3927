/-
# How long a written block is

Offsets in a block have 32 bits, so what is said about a block that is read again
asks for one of less than 4 GiB. How long it is can be seen from its entries,
whatever order they come in (`length_toTiff_le`):

| part | bytes, at most |
| --- | ---: |
| in front of the main directory | 8 |
| a directory's count and the offset behind its table | 6, and 1 to start at an even offset |
| an entry | 12 |
| the bytes of a value | their number, and 1 to start at an even offset |
-/
import Raster.Proofs.Exif.RoundTrip

namespace Raster

namespace Exif

namespace Entry

mutual

/-- The most bytes that an entry takes behind the table that it stands in. -/
def space : Entry → Nat
  | value _ _ _ bytes => bytes.length + 1
  | directory _ _ es => spaceAll es + 7

/-- The most bytes that entries take in their table and behind it. -/
def spaceAll : List Entry → Nat
  | [] => 0
  | e :: es => space e + 12 + spaceAll es

end

/-- The space of entries adds up. -/
theorem spaceAll_append (es es' : List Entry) :
    spaceAll (es ++ es') = spaceAll es + spaceAll es' := by
  induction es with
  | nil => rw [List.nil_append, spaceAll, Nat.zero_add]
  | cons e es ih => rw [List.cons_append, spaceAll, ih, spaceAll, Nat.add_assoc _ _ (spaceAll es')]

/-- It stays where that of each entry does. -/
theorem spaceAll_map {f : Entry → Entry} {es : List Entry} (h : ∀ e ∈ es, (f e).space = e.space) :
    spaceAll (es.map f) = spaceAll es := by
  induction es with
  | nil => rfl
  | cons e es ih =>
    rw [List.forall_mem_cons] at h
    rw [List.map_cons, spaceAll, spaceAll, h.1, ih h.2]

/-- Entries take the same space in any order. -/
theorem spaceAll_perm {es es' : List Entry} (h : es.Perm es') : spaceAll es = spaceAll es' := by
  induction h with
  | nil => rfl
  | cons e _ ih => rw [spaceAll, spaceAll, ih]
  | swap e e' es =>
    simp only [spaceAll]
    omega
  | trans _ _ ih ih' => rw [ih, ih']

/-- Order takes no space. -/
theorem spaceAll_sortByTag (es : List Entry) : spaceAll (sortByTag es) = spaceAll es :=
  spaceAll_perm (List.mergeSort_perm es _)

/-- Tag order takes no more space. -/
@[simp] theorem space_sorted (e : Entry) : e.sorted.space = e.space := by
  induction e using directory_induction with
  | value tag kind count bytes => rw [sorted_value]
  | directory tag kind es ih =>
    rw [sorted_directory, space, space, spaceAll_sortByTag, spaceAll_map ih]

end Entry

/-- Nor does tag order at every depth. -/
theorem spaceAll_normalised (exif : Exif) :
    Entry.spaceAll exif.normalised.entries = Entry.spaceAll exif.entries := by
  rw [entries_normalised, Entry.spaceAll_sortByTag, Entry.spaceAll_map fun e _ => e.space_sorted]

/-- A directory takes its records, what stands behind them, and six bytes for its count and its
link. -/
theorem length_writeDirectory (order : ByteOrder) (start : Nat) (es : List Entry) :
    (writeDirectory order start es).length =
      (writeEntries order (start + 2 + es.length * 12 + 4) es).2.length + es.length * 12 + 6 := by
  simp only [writeDirectory_eq, List.length_append, ByteOrder.length_put16, length_writeEntries,
    List.length_replicate]
  omega

mutual

/-- Behind the table an entry takes no more than its space, the byte before an odd place
included. -/
theorem length_writeEntry_le (order : ByteOrder) :
    ∀ (e : Entry) (pos : Nat), (writeEntry order pos e).2.length ≤ e.space
  | .value tag kind count bytes, pos => by
    rw [Entry.space]
    by_cases h : bytes.length ≤ 4
    · rw [writeEntry_short h]
      exact Nat.zero_le _
    · rw [writeEntry_long h, List.length_append, List.length_replicate]
      omega
  | .directory tag kind es, pos => by
    have htail := length_writeEntries_le order es (pos + pos % 2 + 2 + es.length * 12 + 4)
    rw [writeEntry_directory, List.length_append, List.length_replicate, length_writeDirectory,
      Entry.space]
    omega

/-- Nor do several entries with their records. -/
theorem length_writeEntries_le (order : ByteOrder) :
    ∀ (es : List Entry) (pos : Nat),
      (writeEntries order pos es).2.length + es.length * 12 ≤ Entry.spaceAll es
  | [], _ => by rw [writeEntries]; exact Nat.zero_le _
  | e :: es, pos => by
    have hentry := length_writeEntry_le order e pos
    have hrest := length_writeEntries_le order es (pos + (writeEntry order pos e).2.length)
    rw [writeEntries_cons, List.length_append, List.length_cons, Entry.spaceAll]
    omega

end

/-- **A written block is no longer than its entries make it.** -/
theorem length_toTiff_le (exif : Exif) : exif.toTiff.length ≤ Entry.spaceAll exif.entries + 14 := by
  have hmark : (orderMark exif.order).length = 2 := by cases exif.order <;> decide
  have htail := length_writeEntries_le exif.order exif.normalised.entries
    (8 + 2 + exif.normalised.entries.length * 12 + 4)
  rw [spaceAll_normalised] at htail
  simp only [toTiff, List.length_append, hmark, ByteOrder.length_put16, ByteOrder.length_put32,
    length_writeDirectory]
  omega

/-- Offsets fit a block whose entries take less than 4 GiB. -/
theorem short_of_space {exif : Exif} (h : Entry.spaceAll exif.entries + 14 < UInt32.size) :
    exif.toTiff.length < UInt32.size :=
  Nat.lt_of_le_of_lt (length_toTiff_le exif) h

end Exif

end Raster
