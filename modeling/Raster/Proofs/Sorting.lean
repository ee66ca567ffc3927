/-
# Sorting that keeps ties in order

Elements that may stand on either side of each other keep the order they had
(`filter_mergeSort`). With the permutation and the order of the result this says
all there is to say about a stable sort: a falling list is known by its ties
(`eq_of_falling`).
-/

namespace Raster

variable {α : Type}

/-- **Ties keep their order:** elements of which none has to come before another stay as they
were. -/
theorem filter_mergeSort {le : α → α → Bool} (htrans : ∀ a b c, le a b → le b c → le a c)
    (htotal : ∀ a b, le a b || le b a) {tie : α → Bool}
    (htie : ∀ a b, tie a = true → tie b = true → le a b = true) (l : List α) :
    (l.mergeSort le).filter tie = l.filter tie := by
  have hsorted : (l.filter tie).Pairwise fun a b => le a b = true :=
    List.pairwise_of_forall_mem_list fun a ha b hb =>
      htie a b (List.mem_filter.1 ha).2 (List.mem_filter.1 hb).2
  have hsub := (List.sublist_mergeSort htrans htotal hsorted List.filter_sublist).filter tie
  rw [List.filter_filter] at hsub
  simp only [Bool.and_self] at hsub
  exact (hsub.eq_of_length ((List.mergeSort_perm l le).symm.filter _).length_eq).symm

variable {height : α → Int} {l m : List α}

/-- Lists with the same ties have the same members. -/
theorem mem_iff_of_ties
    (hties : ∀ n, l.filter (fun a => height a = n) = m.filter fun a => height a = n) (a : α) :
    a ∈ l ↔ a ∈ m := by
  have ha := congrArg (a ∈ ·) (hties (height a))
  simpa using ha

/-- **A falling list is known by its ties:** what stands at each height, in order. -/
theorem eq_of_falling (hl : l.Pairwise fun a b => height b ≤ height a)
    (hm : m.Pairwise fun a b => height b ≤ height a)
    (hties : ∀ n, l.filter (fun a => height a = n) = m.filter fun a => height a = n) : l = m := by
  have hmem := mem_iff_of_ties hties
  induction l generalizing m with
  | nil => exact (List.eq_nil_iff_forall_not_mem.2 fun a ha => by simpa using (hmem a).2 ha).symm
  | cons a l ih =>
    cases m with
    | nil => simpa using hmem a
    | cons b m =>
      rw [List.pairwise_cons] at hl hm
      -- the first of either list is as high as anything in the other
      have hab : height a ≤ height b := by
        rcases List.mem_cons.1 ((hmem a).1 List.mem_cons_self) with rfl | ha
        · exact Int.le_refl _
        · exact hm.1 a ha
      have hba : height b ≤ height a := by
        rcases List.mem_cons.1 ((hmem b).2 List.mem_cons_self) with rfl | hb
        · exact Int.le_refl _
        · exact hl.1 b hb
      have hfirst := hties (height a)
      rw [List.filter_cons_of_pos (by simp),
        List.filter_cons_of_pos (by simp [Int.le_antisymm hab hba])] at hfirst
      obtain rfl := (List.cons.inj hfirst).1
      have hrest : ∀ n, l.filter (fun a => height a = n) = m.filter fun a => height a = n := by
        intro n
        have hn := hties n
        rw [List.filter_cons, List.filter_cons] at hn
        split at hn
        · exact (List.cons.inj hn).2
        · exact hn
      exact congrArg (a :: ·) (ih hl.2 hm.2 hrest (mem_iff_of_ties hrest))

end Raster
