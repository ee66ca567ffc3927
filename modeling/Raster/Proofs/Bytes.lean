/-
# Pieces of byte strings

Where a piece stands in a byte string (`Bytes.Holds`), what a slice then finds
(`Holds.slice?`), and how a string is cut into pieces of one length
(`chunks_append`, `length_of_mem_chunks`).
-/
import Raster.Bytes

namespace Raster

namespace Bytes

/-- A text has the length of its UTF-8. -/
theorem length_ofText (s : String) : (ofText s).length = s.utf8ByteSize := rfl

/-- A slice has the length that was asked for. -/
theorem length_of_slice? {bytes piece : Bytes} {offset n : Nat}
    (h : bytes.slice? offset n = some piece) : piece.length = n := by
  rw [slice?_eq] at h
  split at h
  · obtain rfl := Option.some.inj h
    rw [List.length_take, List.length_drop]
    omega
  · cases h

/-- All pieces have one length. -/
theorem length_of_mem_chunks {n : Nat} {bytes piece : Bytes} (h : piece ∈ bytes.chunks n) :
    piece.length = n := by
  rw [chunks_eq] at h
  obtain ⟨i, hi, rfl⟩ := List.mem_map.1 h
  have hi := List.mem_range.1 hi
  have hn : 0 < n := Nat.pos_of_ne_zero fun hn => by
    rw [hn, Nat.div_zero] at hi
    exact absurd hi (Nat.not_lt_zero i)
  have hend : (i + 1) * n ≤ bytes.length := (Nat.le_div_iff_mul_le hn).1 hi
  rw [Nat.succ_mul] at hend
  rw [List.length_take, List.length_drop]
  omega

/-- A piece of the right length in front is cut off first. -/
theorem chunks_append {n : Nat} (hn : 0 < n) {a : Bytes} (ha : a.length = n) (b : Bytes) :
    (a ++ b).chunks n = a :: b.chunks n := by
  have hcount : (a ++ b).length / n = b.length / n + 1 := by
    rw [List.length_append, ha, Nat.add_div_left _ hn]
  have hdrop : ∀ i, (a ++ b).drop ((i + 1) * n) = b.drop (i * n) := by
    intro i
    rw [Nat.succ_mul, Nat.add_comm, ← ha, List.drop_append]
    simp
  simp only [chunks_eq, hcount, List.range_succ_eq_map, List.map_cons, List.map_map, Nat.zero_mul,
    List.drop_zero, Function.comp_def, hdrop, List.take_left' ha]

/-- A piece stands at an offset of a byte string. -/
def Holds (data : Bytes) (pos : Nat) (piece : Bytes) : Prop :=
  ∃ front back, data = front ++ (piece ++ back) ∧ front.length = pos

namespace Holds

variable {data a b : Bytes} {pos : Nat}

/-- A piece ends inside the string. -/
theorem end_le (h : data.Holds pos a) : pos + a.length ≤ data.length := by
  obtain ⟨front, back, rfl, rfl⟩ := h
  simp only [List.length_append]
  omega

/-- A piece that stands somewhere is what is cut out there. -/
theorem slice? (h : data.Holds pos a) : data.slice? pos a.length = some a := by
  have hend := h.end_le
  obtain ⟨front, back, rfl, rfl⟩ := h
  rw [slice?_eq, if_pos hend, List.drop_left, List.take_left]

/-- The front of a piece stands where the piece does. -/
theorem left (h : data.Holds pos (a ++ b)) : data.Holds pos a := by
  obtain ⟨front, back, rfl, rfl⟩ := h
  exact ⟨front, b ++ back, by rw [List.append_assoc], rfl⟩

/-- And its back stands behind the front. -/
theorem right (h : data.Holds pos (a ++ b)) : data.Holds (pos + a.length) b := by
  obtain ⟨front, back, rfl, rfl⟩ := h
  exact ⟨front ++ a, back, by simp only [List.append_assoc], List.length_append⟩

end Holds

end Bytes

end Raster
