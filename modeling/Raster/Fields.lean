/-
# Named values in name order

A map from names to values, kept as a list sorted by name (the order of the
names' code points, which is the order of their UTF-8 bytes). A name occurs at
most once, so two maps with the same answers are the same list.

Main statements: what a look-up finds after `insert`, `erase` and `filter`
(`get?_insert`, `get?_erase`, `get?_filter`), and that look-ups decide equality
(`ext_get?`).
-/
namespace Raster

/-- Values under distinct names, in name order. -/
structure Fields (α : Type) where
  entries : List (String × α)
  sorted : entries.Pairwise (fun a b => a.1 < b.1)
  deriving DecidableEq

namespace Fields

variable {α : Type}

/-- Puts a value under a name, replacing the one that was there. -/
def insertEntry (name : String) (value : α) : List (String × α) → List (String × α)
  | [] => [(name, value)]
  | (n, v) :: rest =>
    if name < n then (name, value) :: (n, v) :: rest
    else if name = n then (name, value) :: rest
    else (n, v) :: insertEntry name value rest

/-- Setting a field adds no entry but its own. -/
theorem mem_insertEntry {name : String} {value : α} {e : String × α} {l : List (String × α)}
    (h : e ∈ insertEntry name value l) : e = (name, value) ∨ e ∈ l := by
  induction l with
  | nil => simpa [insertEntry] using h
  | cons a rest ih =>
    obtain ⟨n, v⟩ := a
    rw [insertEntry] at h
    split at h
    · simpa using h
    · split at h
      · simp only [List.mem_cons] at h ⊢
        exact h.imp id Or.inr
      · simp only [List.mem_cons] at h ⊢
        rcases h with h | h
        · exact .inr (.inl h)
        · exact (ih h).imp id Or.inr

/-- Names are in a total order. -/
theorem lt_of_not_lt_of_ne {a b : String} (h : ¬a < b) (hne : a ≠ b) : b < a := by
  rcases Classical.em (b < a) with hb | hb
  · exact hb
  · exact absurd (String.le_antisymm (String.not_lt.1 hb) (String.not_lt.1 h)) hne

/-- The entries stay in order, so every name stands once. -/
theorem sorted_insertEntry (name : String) (value : α) {l : List (String × α)}
    (h : l.Pairwise (fun a b => a.1 < b.1)) :
    (insertEntry name value l).Pairwise (fun a b => a.1 < b.1) := by
  induction l with
  | nil => simp [insertEntry]
  | cons a rest ih =>
    obtain ⟨n, v⟩ := a
    rw [List.pairwise_cons] at h
    rw [insertEntry]
    split
    · rename_i hlt
      refine List.pairwise_cons.2 ⟨fun e he => ?_, List.pairwise_cons.2 h⟩
      rcases List.mem_cons.1 he with rfl | he
      · exact hlt
      · exact String.lt_trans hlt (h.1 e he)
    · split
      · rename_i heq
        subst heq
        exact List.pairwise_cons.2 ⟨fun e he => h.1 e he, h.2⟩
      · rename_i hlt hne
        refine List.pairwise_cons.2 ⟨fun e he => ?_, ih h.2⟩
        rcases mem_insertEntry he with rfl | he
        · exact lt_of_not_lt_of_ne hlt hne
        · exact h.1 e he

/-- The value under a name in a list of entries. -/
def find (name : String) : List (String × α) → Option α
  | [] => none
  | (n, v) :: rest => if name = n then some v else find name rest

/-- No fields. -/
def empty : Fields α := ⟨[], .nil⟩

instance : EmptyCollection (Fields α) := ⟨empty⟩

instance : Inhabited (Fields α) := ⟨empty⟩

/-- The value under a name. -/
def get? (fields : Fields α) (name : String) : Option α := find name fields.entries

/-- Whether there is a value under the name. -/
def contains (fields : Fields α) (name : String) : Bool := (fields.get? name).isSome

/-- Puts a value under a name, replacing the one that was there. -/
def insert (fields : Fields α) (name : String) (value : α) : Fields α :=
  ⟨insertEntry name value fields.entries, sorted_insertEntry name value fields.sorted⟩

/-- The fields whose name and value pass a test. -/
def filter (fields : Fields α) (keep : String → α → Bool) : Fields α :=
  ⟨fields.entries.filter fun e => keep e.1 e.2, fields.sorted.sublist List.filter_sublist⟩

/-- The fields without the one of a name. -/
def erase (fields : Fields α) (name : String) : Fields α := fields.filter fun n _ => n != name

/-- Every entry of `other` put on top of `fields`. -/
def extend (fields other : Fields α) : Fields α :=
  other.entries.foldl (fun acc e => acc.insert e.1 e.2) fields

/-- Puts the entries of a list one after the other, so that later ones win. -/
def ofList (entries : List (String × α)) : Fields α :=
  entries.foldl (fun acc e => acc.insert e.1 e.2) empty

/-- The entries in name order. -/
def toList (fields : Fields α) : List (String × α) := fields.entries

/-- The names in order. -/
def names (fields : Fields α) : List String := fields.entries.map (·.1)

/-- How many fields there are. -/
def size (fields : Fields α) : Nat := fields.entries.length

/-- Whether there are no fields. -/
def isEmpty (fields : Fields α) : Bool := fields.entries.isEmpty

@[simp] theorem get?_empty (name : String) : (empty : Fields α).get? name = none := rfl

/-- What is looked up behind a set field: its value under its name, and all else as before. -/
theorem find_insertEntry (name : String) (value : α) (other : String) (l : List (String × α)) :
    find other (insertEntry name value l) = if other = name then some value else find other l := by
  induction l with
  | nil => rfl
  | cons a rest ih =>
    obtain ⟨n, v⟩ := a
    rw [insertEntry]
    split
    · rfl
    · split
      · rename_i heq
        subst heq
        by_cases h : other = name <;> simp [find, h]
      · rename_i hne
        by_cases hn : other = n
        · subst hn
          simp [find, Ne.symm hne]
        · simp [find, hn, ih]

/-- **After an insertion the name holds the new value, and no other name changes.** -/
@[simp] theorem get?_insert (fields : Fields α) (name other : String) (value : α) :
    (fields.insert name value).get? other = if other = name then some value else fields.get? other :=
  find_insertEntry name value other fields.entries

/-- A name that no entry has is not found. -/
theorem find_eq_none {name : String} {l : List (String × α)} (h : ∀ e ∈ l, e.1 ≠ name) :
    find name l = none := by
  induction l with
  | nil => rfl
  | cons a rest ih =>
    rw [find, if_neg fun heq => h a (by simp) heq.symm]
    exact ih fun e he => h e (by simp [he])

/-- Every entry is found under its name, for no other has the name. -/
theorem find_eq_some {l : List (String × α)} (hs : l.Pairwise (fun a b => a.1 < b.1))
    {e : String × α} (he : e ∈ l) : find e.1 l = some e.2 := by
  induction l with
  | nil => simp at he
  | cons a rest ih =>
    rw [List.pairwise_cons] at hs
    rcases List.mem_cons.1 he with rfl | he
    · simp [find]
    · rw [find, if_neg fun heq : e.1 = a.1 => String.lt_irrefl a.1 (by simpa [heq] using hs.1 e he)]
      exact ih hs.2 he

/-- Leaving out entries by name and value is leaving them out of what is found. -/
theorem find_filter (keep : String → α → Bool) (name : String) {l : List (String × α)}
    (hs : l.Pairwise (fun a b => a.1 < b.1)) :
    find name (l.filter fun e => keep e.1 e.2) = (find name l).filter (keep name) := by
  induction l with
  | nil => rfl
  | cons a rest ih =>
    obtain ⟨n, v⟩ := a
    rw [List.pairwise_cons] at hs
    have ih := ih hs.2
    by_cases hn : name = n
    · subst hn
      have hrest : find name rest = none :=
        find_eq_none fun e he heq => String.lt_irrefl name (by simpa [heq] using hs.1 e he)
      rw [hrest] at ih
      by_cases hk : keep name v
      · simp [hk, find, Option.filter]
      · simp [hk, find, ih, Option.filter]
    · by_cases hk : keep n v <;> simp [hk, find, hn, ih]

/-- **A filter keeps exactly the fields that pass, with their values.** -/
@[simp] theorem get?_filter (fields : Fields α) (keep : String → α → Bool) (name : String) :
    (fields.filter keep).get? name = (fields.get? name).filter (keep name) :=
  find_filter keep name fields.sorted

/-- An erased field is gone, and the others are as they were. -/
@[simp] theorem get?_erase (fields : Fields α) (name other : String) :
    (fields.erase name).get? other = if other = name then none else fields.get? other := by
  rw [erase, get?_filter]
  by_cases h : other = name
  · cases fields.get? other <;> simp [h]
  · cases fields.get? other <;> simp [h]

/-- What is found is an entry. -/
theorem mem_of_find {name : String} {value : α} {l : List (String × α)}
    (h : find name l = some value) : (name, value) ∈ l := by
  induction l with
  | nil => simp [find] at h
  | cons a rest ih =>
    obtain ⟨n, v⟩ := a
    rw [find] at h
    split at h
    · simp_all
    · exact List.mem_cons_of_mem _ (ih h)

/-- The entries listed are the fields found. -/
theorem mem_toList {f : Fields α} {name : String} {value : α} :
    (name, value) ∈ f.toList ↔ f.get? name = some value :=
  ⟨find_eq_some f.sorted, mem_of_find⟩

/-- A test of the names asks for a field whose name passes it. -/
theorem any_names {f : Fields α} {p : String → Bool} :
    f.names.any p = true ↔ ∃ name value, p name = true ∧ f.get? name = some value := by
  rw [names, List.any_map, List.any_eq_true]
  constructor
  · rintro ⟨⟨name, value⟩, hmem, hp⟩
    exact ⟨name, value, hp, mem_toList.1 hmem⟩
  · rintro ⟨name, value, hp, hfound⟩
    exact ⟨(name, value), mem_toList.2 hfound, hp⟩

/-- Two ordered lists of entries in which the same is found are one, which makes fields
extensional. -/
theorem eq_of_find_eq {l m : List (String × α)} (hl : l.Pairwise (fun a b => a.1 < b.1))
    (hm : m.Pairwise (fun a b => a.1 < b.1)) (h : ∀ name, find name l = find name m) : l = m := by
  induction l generalizing m with
  | nil =>
    cases m with
    | nil => rfl
    | cons b m => have := h b.1; simp [find] at this
  | cons a l ih =>
    cases m with
    | nil => have := h a.1; simp [find] at this
    | cons b m =>
      obtain ⟨na, va⟩ := a
      obtain ⟨nb, vb⟩ := b
      rw [List.pairwise_cons] at hl hm
      have hab : na = nb := by
        rcases Classical.em (na = nb) with hEq | hne
        · exact hEq
        · have h1 : (na, va) ∈ m := mem_of_find (by have := h na; simp [find, hne] at this; exact this.symm)
          have h2 : (nb, vb) ∈ l := mem_of_find (by have := h nb; simpa [find, Ne.symm hne] using this)
          exact absurd (String.lt_trans (hl.1 _ h2) (hm.1 _ h1)) (String.lt_irrefl na)
      subst hab
      have hv : va = vb := by have := h na; simpa [find] using this
      subst hv
      congr 1
      refine ih hl.2 hm.2 fun name => ?_
      rcases Classical.em (name = na) with rfl | hne
      · rw [find_eq_none fun e he heq => String.lt_irrefl name (by simpa [heq] using hl.1 e he),
          find_eq_none fun e he heq => String.lt_irrefl name (by simpa [heq] using hm.1 e he)]
      · simpa [find, hne] using h name

/-- **Two maps that answer every look-up alike are equal.** -/
theorem ext_get? {f g : Fields α} (h : ∀ name, f.get? name = g.get? name) : f = g := by
  obtain ⟨l, hl⟩ := f
  obtain ⟨m, hm⟩ := g
  have : l = m := eq_of_find_eq hl hm h
  subst this
  rfl

/-- Putting a value where it is already changes nothing. -/
theorem insert_eq_self {f : Fields α} {name : String} {value : α} (h : f.get? name = some value) :
    f.insert name value = f := by
  refine ext_get? fun other => ?_
  rw [get?_insert]
  split
  · rename_i heq
    rw [heq, h]
  · rfl

end Fields

end Raster
