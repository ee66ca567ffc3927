/-
# Directories in tag order

Writing puts every directory in the order of its tags. Entries of one tag keep
their order, so nothing that is read or edited, the first entry of a tag, changes
its place among them.

`Entry.InTagOrder a b` says that `b` is `a` so ordered at every level, without
saying how to order it; `Entry.sorted` is one (`inTagOrder_sorted`), and ordering
it once more changes nothing (`sorted_sorted`).
-/
import Raster.Exif.Layout
import Raster.Proofs.Sorting

namespace Raster

namespace Exif

namespace Entry

/-- A statement about entries that holds of values, and of a directory if of its entries, holds of
every entry. -/
theorem directory_induction {P : Entry → Prop}
    (value : ∀ tag kind count bytes, P (.value tag kind count bytes))
    (directory : ∀ tag kind entries, (∀ e ∈ entries, P e) → P (.directory tag kind entries)) :
    ∀ e : Entry, P e
  | .value tag kind count bytes => value tag kind count bytes
  | .directory tag kind entries =>
    directory tag kind entries fun e _ => directory_induction value directory e
termination_by e => sizeOf e
decreasing_by
  have : sizeOf e < sizeOf entries := List.sizeOf_lt_of_mem ‹_›
  simp only [Entry.directory.sizeOf_spec]
  omega

/-- Entries are put in order one by one. -/
theorem sortedAll_eq_map (es : List Entry) : sortedAll es = es.map sorted := by
  induction es with
  | nil => rfl
  | cons e es ih => rw [sortedAll, ih, List.map_cons]

/-- A value has nothing to be put in order. -/
@[simp] theorem sorted_value (tag kind : UInt16) (count : UInt32) (bytes : Bytes) :
    sorted (.value tag kind count bytes) = .value tag kind count bytes := by rw [sorted]

/-- A directory is put in order from the inside. -/
@[simp] theorem sorted_directory (tag kind : UInt16) (es : List Entry) :
    sorted (.directory tag kind es) = .directory tag kind (sortByTag (es.map sorted)) := by
  rw [sorted, sortedAll_eq_map]

/-! ### Order and stability -/

/-- Sorting changes no entry. -/
theorem mem_sortByTag {e : Entry} {es : List Entry} : e ∈ sortByTag es ↔ e ∈ es :=
  List.mem_mergeSort

/-- And loses none. -/
theorem length_sortByTag (es : List Entry) : (sortByTag es).length = es.length :=
  List.length_mergeSort es

/-- The order of tags is transitive, which sorting asks for. -/
theorem tag_le_trans (a b c : Entry) (hab : decide (a.tag ≤ b.tag) = true)
    (hbc : decide (b.tag ≤ c.tag) = true) : decide (a.tag ≤ c.tag) = true :=
  decide_eq_true (UInt16.le_trans (of_decide_eq_true hab) (of_decide_eq_true hbc))

/-- And total. -/
theorem tag_le_total (a b : Entry) : (decide (a.tag ≤ b.tag) || decide (b.tag ≤ a.tag)) = true := by
  rw [Bool.or_eq_true, decide_eq_true_eq, decide_eq_true_eq]
  exact UInt16.le_total ..

/-- Sorted entries come by rising tag. -/
theorem pairwise_sortByTag (es : List Entry) :
    (sortByTag es).Pairwise fun a b => a.tag ≤ b.tag :=
  (List.pairwise_mergeSort tag_le_trans tag_le_total es).imp of_decide_eq_true

/-- **Entries of one tag keep their order.** -/
theorem filter_sortByTag (t : UInt16) (es : List Entry) :
    (sortByTag es).filter (fun e => e.tag == t) = es.filter fun e => e.tag == t := by
  refine filter_mergeSort tag_le_trans tag_le_total (fun a b ha hb => decide_eq_true ?_) es
  obtain rfl : a.tag = t := by simpa using ha
  obtain heq : b.tag = a.tag := by simpa using hb
  rw [heq]
  exact UInt16.le_refl _

/-- `b` is `a` with every directory in it in tag order: its entries, each so ordered, come by
rising tag, and those of one tag as they came before. -/
inductive InTagOrder : Entry → Entry → Prop
  | value (tag kind : UInt16) (count : UInt32) (bytes : Bytes) :
    InTagOrder (.value tag kind count bytes) (.value tag kind count bytes)
  | directory (tag kind : UInt16) {es es' : List Entry} (order : Entry → Entry)
    (each : ∀ e ∈ es, InTagOrder e (order e)) (rising : es'.Pairwise fun a b => a.tag ≤ b.tag)
    (stable : ∀ t : UInt16,
      (es'.filter fun e => e.tag == t) = (es.map order).filter fun e => e.tag == t) :
    InTagOrder (.directory tag kind es) (.directory tag kind es')

/-- **Sorting an entry puts it in tag order.** -/
theorem inTagOrder_sorted (e : Entry) : InTagOrder e e.sorted := by
  induction e using directory_induction with
  | value tag kind count bytes =>
    rw [sorted_value]
    exact .value ..
  | directory tag kind es ih =>
    rw [sorted_directory]
    exact .directory tag kind sorted ih (pairwise_sortByTag _) fun t => filter_sortByTag t _

/-- What is in tag order stays as it is. -/
theorem sortByTag_of_pairwise {es : List Entry} (h : es.Pairwise fun a b => a.tag ≤ b.tag) :
    sortByTag es = es :=
  List.mergeSort_of_pairwise (h.imp fun hle => decide_eq_true hle)

/-- **Sorting twice is sorting once.** -/
theorem sorted_sorted (e : Entry) : e.sorted.sorted = e.sorted := by
  induction e using directory_induction with
  | value tag kind count bytes => rw [sorted_value, sorted_value]
  | directory tag kind es ih =>
    have hsame : (sortByTag (es.map sorted)).map sorted = sortByTag (es.map sorted) := by
      refine (List.map_congr_left fun e he => ?_).trans (List.map_id _)
      obtain ⟨e', he', rfl⟩ := List.mem_map.1 (mem_sortByTag.1 he)
      exact ih e' he'
    rw [sorted_directory, sorted_directory, hsame, sortByTag_of_pairwise (pairwise_sortByTag _)]

end Entry

/-- Two blocks of one byte order, the second one with every directory in tag order. -/
def InTagOrder (a b : Exif) : Prop :=
  a.order = b.order ∧
    Entry.InTagOrder (.directory 0 0 a.entries) (.directory 0 0 b.entries)

/-- A block in tag order has its main directory in order, as every other one. -/
theorem entries_normalised (exif : Exif) :
    exif.normalised.entries = Entry.sortByTag (exif.entries.map Entry.sorted) := by
  rw [normalised, Entry.sortedAll_eq_map]

/-- **Normalising puts every directory in tag order** and changes nothing else. -/
theorem inTagOrder_normalised (exif : Exif) : InTagOrder exif exif.normalised := by
  refine ⟨rfl, ?_⟩
  rw [entries_normalised, ← Entry.sorted_directory]
  exact Entry.inTagOrder_sorted _

/-- What is in tag order stays as it is. -/
theorem normalised_normalised (exif : Exif) : exif.normalised.normalised = exif.normalised := by
  have h := Entry.sorted_sorted (.directory 0 0 exif.entries)
  rw [Entry.sorted_directory, Entry.sorted_directory] at h
  injection h with _ _ h
  rw [← entries_normalised, ← entries_normalised] at h
  cases exif
  exact congrArg (Exif.mk _) h

end Exif

end Raster
