/-
# Fields put in one after the other

Many entries go into a map one by one. What a name has afterwards is told by the list of
entries:

| entries | the name has afterwards |
| --- | --- |
| none of them has the name | what it had (`get?_foldl_insert`) |
| all with that name have one value | that value (`get?_foldl_insert_of_mem`) |
| in name order | the value in the list, or else what it had (`get?_foldl_insert_sorted`) |

So one map put on top of another answers first (`get?_extend`).
-/
import Raster.Fields

namespace Raster

namespace Fields

variable {α : Type}

/-- Setting other fields leaves a field as it was. -/
theorem get?_foldl_insert {name : String} :
    ∀ {l : List (String × α)} {fields : Fields α}, (∀ e ∈ l, e.1 ≠ name) →
      (l.foldl (fun acc e => acc.insert e.1 e.2) fields).get? name = fields.get? name
  | [], _, _ => rfl
  | e :: l, fields, h => by
    rw [List.foldl_cons, get?_foldl_insert fun e' he' => h e' (List.mem_cons_of_mem _ he'),
      get?_insert, if_neg (Ne.symm (h e List.mem_cons_self))]

/-- Where a name is put in with one value only, that is what it has. -/
theorem get?_foldl_insert_of_mem {name : String} {value : α} :
    ∀ {l : List (String × α)} {fields : Fields α}, (name, value) ∈ l →
      (∀ e ∈ l, e.1 = name → e.2 = value) →
        (l.foldl (fun acc e => acc.insert e.1 e.2) fields).get? name = some value
  | e :: l, fields, hmem, hsame => by
    rw [List.forall_mem_cons] at hsame
    rw [List.foldl_cons]
    by_cases hlater : (name, value) ∈ l
    · exact get?_foldl_insert_of_mem hlater hsame.2
    · obtain rfl := (List.mem_cons.1 hmem).resolve_right hlater
      have hother : ∀ e ∈ l, e.1 ≠ name := by
        intro e he heq
        have hvalue := hsame.2 e he heq
        exact hlater (heq ▸ hvalue ▸ he)
      rw [get?_foldl_insert hother, get?_insert, if_pos rfl]

/-- Putting distinct names in one after the other makes their list the answer to every look-up. -/
theorem get?_foldl_insert_sorted {name : String} :
    ∀ {l : List (String × α)} {fields : Fields α}, l.Pairwise (fun a b => a.1 < b.1) →
      (l.foldl (fun acc e => acc.insert e.1 e.2) fields).get? name
        = (find name l).or (fields.get? name)
  | [], _, _ => by simp [find]
  | (n, v) :: l, fields, h => by
    rw [List.pairwise_cons] at h
    by_cases hn : name = n
    · subst hn
      have hrest : ∀ e ∈ l, e.1 ≠ name := fun e he heq =>
        String.lt_irrefl name (by simpa [heq] using h.1 e he)
      rw [List.foldl_cons, get?_foldl_insert hrest, get?_insert, if_pos rfl, find, if_pos rfl,
        Option.some_or]
    · rw [List.foldl_cons, get?_foldl_insert_sorted h.2, get?_insert, if_neg hn, find, if_neg hn]

/-- **Fields put in one after the other, in their own order, are the same fields.** -/
theorem foldl_insert_toList (fields : Fields α) :
    fields.toList.foldl (fun acc e => acc.insert e.1 e.2) {} = fields := by
  refine ext_get? fun name => ?_
  rw [toList, get?_foldl_insert_sorted fields.sorted]
  exact Option.or_none

/-- The names are those under which something is found. -/
theorem mem_names {fields : Fields α} {name : String} :
    name ∈ fields.names ↔ ∃ value, fields.get? name = some value := by
  rw [names, List.mem_map]
  constructor
  · rintro ⟨⟨n, value⟩, hmem, rfl⟩
    exact ⟨value, mem_toList.1 hmem⟩
  · rintro ⟨value, hfound⟩
    exact ⟨(name, value), mem_toList.2 hfound, rfl⟩

/-- **The fields on top answer first.** -/
@[simp] theorem get?_extend (fields other : Fields α) (name : String) :
    (fields.extend other).get? name = (other.get? name).or (fields.get? name) :=
  get?_foldl_insert_sorted other.sorted

/-- Putting a field in and then all on top of others, or first all and then the field. -/
theorem extend_insert (fields other : Fields α) (name : String) (value : α) :
    fields.extend (other.insert name value) = (fields.extend other).insert name value := by
  refine ext_get? fun n => ?_
  simp only [get?_extend, get?_insert]
  split <;> rfl

end Fields

end Raster
