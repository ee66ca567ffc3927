/-
# How many entries a block can have

An entry of a table that points at a directory brings in another table, and nothing keeps two
pointers from leading to one table, or a pointer from leading back to the table that it stands in.
Only the nesting ends, after five levels. So a block may have more entries than bytes: three entries
that point back at their own table are 120 (`totalAll_looping`).

| bound on the entries | where |
| --- | --- |
| `m + m² + m³ + m⁴ + m⁵`, with room for `m` entries in one table | always |
| `k` times the bytes, by twelve | no byte lies in more than `k` tables |

The first is by induction on the levels (`totalAll_le_sum_pow`). For the second, entries are counted
table by table (`totalAll_le_counts`) and the bytes of the tables byte by byte (`sum_size_le`).
-/
import Mathlib.Algebra.BigOperators.Ring.Finset
import Mathlib.Algebra.BigOperators.Ring.List
import Mathlib.Algebra.Order.BigOperators.Group.Finset
import Mathlib.Order.Interval.Finset.Nat
import Raster.Proofs.Exif.Update

namespace Raster

namespace Exif

/-! ### Tables -/

/-- A table that is read: the offset of its first entry, and how many it has. -/
structure Table where
  start : Nat
  count : Nat

namespace Table

/-- The offset behind a table's last entry. -/
def stop (t : Table) : Nat := t.start + t.count * 12

/-- Whether a byte lies in a table. -/
def Covers (t : Table) (i : Nat) : Prop := t.start ≤ i ∧ i < t.stop

instance (t : Table) (i : Nat) : Decidable (t.Covers i) := inferInstanceAs (Decidable (_ ∧ _))

end Table

/-- The offset that an entry's twelve bytes point at, if they are a pointer. -/
def pointee (order : ByteOrder) (raw : Bytes) : Option Nat :=
  if isPointer (order.get16 (raw.take 2)) then some (order.get32 ((raw.drop 8).take 4)).toNat
  else none

/-- The tables that are read for the directory at an offset, as often as they are read. -/
def tables (order : ByteOrder) (data : Bytes) : (levels offset : Nat) → List Table
  | 0, _ => []
  | levels + 1, offset =>
    match tableAt order data offset with
    | none => []
    | some table =>
      ⟨offset + 2, table.length⟩ ::
        table.flatMap fun raw => (pointee order raw).elim [] (tables order data levels)

/-- The tables that are read for a block, as often as they are read. -/
def tablesOf (order : ByteOrder) (blob : Bytes) : List Table :=
  tables order (unmarked blob) (maxDepth + 1) (mainOffset order (unmarked blob))

variable {order : ByteOrder} {data : Bytes}

/-- All tables that are read lie inside the block, so there are few different ones. -/
theorem stop_le_of_mem_tables {t : Table} :
    ∀ {levels offset : Nat}, t ∈ tables order data levels offset → t.stop ≤ data.length
  | 0, _, h => by cases h
  | levels + 1, offset, h => by
    rw [tables] at h
    split at h
    · cases h
    · rename_i table htable
      rcases List.mem_cons.1 h with rfl | h
      · exact (length_of_tableAt htable).2
      · obtain ⟨raw, -, hraw⟩ := List.mem_flatMap.1 h
        cases hpointee : pointee order raw with
        | none => rw [hpointee] at hraw; cases hraw
        | some inner => rw [hpointee] at hraw; exact stop_le_of_mem_tables hraw

/-! ### Entries -/

/-- An entry is one, and what the directory has that it points at. -/
theorem total_le_of_readEntry {sub : Nat → Option (List Entry)} {raw : Bytes} {e : Entry}
    {bound : Nat} (h : readEntry sub order data raw = some e)
    (hsub : ∀ offset es, pointee order raw = some offset → sub offset = some es →
      Entry.totalAll es ≤ bound) : e.total ≤ 1 + bound := by
  simp only [readEntry] at h
  split at h
  · rename_i hpointer
    obtain ⟨es, hes, rfl⟩ := Option.map_eq_some_iff.1 h
    rw [Entry.total]
    exact Nat.add_le_add_left (hsub _ es (if_pos hpointer) hes) 1
  · split at h
    · obtain rfl := Option.some.inj h
      exact Nat.le_add_right 1 bound
    · obtain ⟨bytes, -, rfl⟩ := Option.map_eq_some_iff.1 h
      exact Nat.le_add_right 1 bound

/-- A directory has an entry for each piece of its table at most, and what those point at. -/
theorem totalAll_filterMap_le (data : Bytes) (table : List Bytes)
    {sub : Nat → Option (List Entry)} {bound : Bytes → Nat}
    (hsub : ∀ raw offset es, pointee order raw = some offset → sub offset = some es →
      Entry.totalAll es ≤ bound raw) :
    Entry.totalAll (table.filterMap (readEntry sub order data)) ≤
      table.length + (table.map bound).sum := by
  induction table with
  | nil => exact Nat.zero_le _
  | cons raw table ih =>
    rw [List.length_cons, List.map_cons, List.sum_cons]
    cases hraw : readEntry sub order data raw with
    | none =>
      rw [List.filterMap_cons_none hraw]
      omega
    | some e =>
      have hentry := total_le_of_readEntry hraw (hsub raw)
      rw [List.filterMap_cons_some hraw, Entry.totalAll]
      omega

/-- **Every entry that is read stands in a table that is read.** -/
theorem totalAll_le_counts :
    ∀ {levels offset : Nat} {es : List Entry}, readDirectory order data levels offset = some es →
      Entry.totalAll es ≤ ((tables order data levels offset).map Table.count).sum
  | 0, _, _, h => nomatch h
  | levels + 1, offset, es, h => by
    obtain ⟨table, htable, rfl⟩ := Option.map_eq_some_iff.1 h
    have hsub : ∀ raw inner es, pointee order raw = some inner →
        readDirectory order data levels inner = some es → Entry.totalAll es ≤
          (((pointee order raw).elim [] (tables order data levels)).map Table.count).sum := by
      intro raw inner es hpointee hread
      rw [hpointee]
      exact totalAll_le_counts hread
    have hentries := totalAll_filterMap_le data table hsub
    simp only [tables, htable, List.map_cons, List.sum_cons]
    rwa [List.map_flatMap, List.flatMap_def, List.sum_flatten, List.map_map]

/-! ### Bounds -/

/-- **A bound on the nesting alone.** -/
theorem totalAll_le_sum_pow {m : Nat} (hm : (data.length - 2) / 12 ≤ m) :
    ∀ {levels offset : Nat} {es : List Entry}, readDirectory order data levels offset = some es →
      Entry.totalAll es ≤ ∑ i ∈ Finset.range levels, m ^ (i + 1)
  | 0, _, _, h => nomatch h
  | levels + 1, offset, es, h => by
    obtain ⟨table, htable, rfl⟩ := Option.map_eq_some_iff.1 h
    have hlength : table.length ≤ m := by
      have hstop := (length_of_tableAt htable).2
      omega
    have hsub : ∀ raw inner es, pointee order raw = some inner →
        readDirectory order data levels inner = some es →
          Entry.totalAll es ≤ ∑ i ∈ Finset.range levels, m ^ (i + 1) :=
      fun _ _ _ _ hread => totalAll_le_sum_pow hm hread
    have hentries := totalAll_filterMap_le data table hsub
    rw [List.map_const', List.sum_replicate_nat] at hentries
    calc Entry.totalAll (table.filterMap _)
      _ ≤ table.length + table.length * ∑ i ∈ Finset.range levels, m ^ (i + 1) := hentries
      _ ≤ m + m * ∑ i ∈ Finset.range levels, m ^ (i + 1) :=
        Nat.add_le_add hlength (Nat.mul_le_mul_right _ hlength)
      _ = ∑ i ∈ Finset.range (levels + 1), m ^ (i + 1) := by
        rw [Finset.sum_range_succ', Finset.mul_sum, Nat.add_comm]
        simp only [pow_succ', pow_zero, mul_one]

/-- Bytes of tables, counted once for every table that they lie in. -/
theorem sum_countP_covers {n : Nat} :
    ∀ {ts : List Table}, (∀ t ∈ ts, t.stop ≤ n) →
      ∑ i ∈ Finset.range n, ts.countP (fun t => t.Covers i) = (ts.map fun t => t.count * 12).sum
  | [], _ => by simp
  | t :: ts, h => by
    rw [List.forall_mem_cons] at h
    have hcovers : (Finset.range n).filter (fun i => t.Covers i) = Finset.Ico t.start t.stop := by
      ext i
      have hstop := h.1
      rw [Finset.mem_filter, Finset.mem_range, Finset.mem_Ico, Table.Covers]
      omega
    simp only [List.countP_cons, Finset.sum_add_distrib, sum_countP_covers h.2, decide_eq_true_eq]
    rw [← Finset.card_filter, hcovers, Nat.card_Ico, List.map_cons, List.sum_cons, Table.stop]
    omega

/-- **Where no byte lies in many tables,** tables are not much longer than the block. -/
theorem sum_size_le {n k : Nat} {ts : List Table} (h : ∀ t ∈ ts, t.stop ≤ n)
    (hk : ∀ i, ts.countP (fun t => t.Covers i) ≤ k) :
    (ts.map fun t => t.count * 12).sum ≤ k * n := by
  rw [← sum_countP_covers h, Nat.mul_comm]
  calc ∑ i ∈ Finset.range n, ts.countP (fun t => t.Covers i)
    _ ≤ ∑ _i ∈ Finset.range n, k := Finset.sum_le_sum fun i _ => hk i
    _ = n * k := by rw [Finset.sum_const_nat fun _ _ => rfl, Finset.card_range]

/-- Taking off the marker does not make a block longer. -/
theorem length_unmarked_le (blob : Bytes) : (unmarked blob).length ≤ blob.length := by
  rw [unmarked]
  split
  · rw [List.length_drop]
    omega
  · exact Nat.le_refl _

/-- **How many entries a block has that was read.**  They are no more than tables nested five deep
can have that take up the whole block each. And where no byte lies in more than `k` of the tables
that were read, twelve bytes for each entry are no more than `k` times the block: one in which no
byte lies in more than twelve has no more entries than bytes. -/
theorem totalAll_parse_le {blob : Bytes} {exif : Exif} (hparse : parse blob = .ok exif) :
    Entry.totalAll exif.entries ≤
        ∑ i ∈ Finset.range (maxDepth + 1), ((blob.length - 2) / 12) ^ (i + 1) ∧
      ∀ k, (∀ i, (tablesOf exif.order blob).countP (fun t => t.Covers i) ≤ k) →
        Entry.totalAll exif.entries * 12 ≤ k * blob.length := by
  have hread := readDirectory_of_parse hparse
  have hlength := length_unmarked_le blob
  refine ⟨totalAll_le_sum_pow (by omega) hread, fun k hk => ?_⟩
  have hcounts : ((tablesOf exif.order blob).map Table.count).sum * 12 =
      ((tablesOf exif.order blob).map fun t => t.count * 12).sum := by
    rw [List.sum_map_mul_right]
  calc Entry.totalAll exif.entries * 12
    _ ≤ ((tablesOf exif.order blob).map Table.count).sum * 12 :=
      Nat.mul_le_mul_right 12 (totalAll_le_counts hread)
    _ ≤ k * (unmarked blob).length :=
      hcounts ▸ sum_size_le (fun t ht => stop_le_of_mem_tables ht) hk
    _ ≤ k * blob.length := Nat.mul_le_mul_left k hlength

/-- A block with two tables beside each other. -/
theorem totalAll_parse_le_annotated :
    parse annotated = .ok annotatedBlock ∧
      (∀ i, (tablesOf annotatedBlock.order annotated).countP (fun t => t.Covers i) ≤ 1) ∧
      Entry.totalAll annotatedBlock.entries * 12 ≤ 1 * annotated.length := by
  have htables : tablesOf annotatedBlock.order annotated = [⟨10, 2⟩, ⟨40, 2⟩] := by rfl
  have hapart : ∀ i,
      (tablesOf annotatedBlock.order annotated).countP (fun t => t.Covers i) ≤ 1 := by
    intro i
    have hmain : (Table.mk 10 2).Covers i ↔ 10 ≤ i ∧ i < 34 := Iff.rfl
    have hexif : (Table.mk 40 2).Covers i ↔ 40 ≤ i ∧ i < 64 := Iff.rfl
    simp only [htables, List.countP_cons, List.countP_nil, decide_eq_true_eq, hmain, hexif]
    split <;> split <;> omega
  exact ⟨parse_annotated, hapart, (totalAll_parse_le parse_annotated).2 1 hapart⟩

/-- A block of three Exif pointers, all of them to the table that they stand in. -/
def looping : Bytes :=
  [0x4D, 0x4D, 0, 42, 0, 0, 0, 8, 0, 3,
    0x87, 0x69, 0, 4, 0, 0, 0, 1, 0, 0, 0, 8,
    0x87, 0x69, 0, 4, 0, 0, 0, 1, 0, 0, 0, 8,
    0x87, 0x69, 0, 4, 0, 0, 0, 1, 0, 0, 0, 8]

/-- What is read of its table, so many levels deep. -/
def loop : Nat → List Entry
  | 0 => []
  | levels + 1 => List.replicate 3 (.directory exifPointer 4 (loop levels))

/-- **More entries than bytes.** -/
theorem totalAll_looping :
    parse looping = .ok ⟨.big, loop 4⟩ ∧ Entry.totalAll (loop 4) = 120 ∧ looping.length = 46 := by
  have hunmarked : unmarked looping = looping := by decide
  have horder : orderOf looping = some .big := by decide
  refine ⟨?_, by decide, by decide⟩
  simp only [parse, hunmarked, horder]
  rfl

end Exif

end Raster
