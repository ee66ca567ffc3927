/-
# Laying one value over another, leaf by leaf

What is not a table is a leaf. The leaf at the end of a path is the overlay's where it has
one, and the base's where the overlay leaves the path alone (`leaf?_merge`):

| overlay | at the path afterwards |
| --- | --- |
| a leaf at the end of the path | that leaf |
| a table at the end of the path | no leaf |
| a leaf on the way (`path` goes through it) | no leaf |
| nothing, and tables all the way (`Passes`) | what the base has |

Laying the same value over once more changes nothing (`Distinct.merge_merge`), if the keys of
each of its tables are distinct, as they are in every file.
-/
import Raster.Toml.Basic

namespace Raster

namespace Toml

/-! ### Looking up -/

/-- Entries in front are found first. -/
theorem find?_append (key : String) (front back : List (String × Toml)) :
    find? key (front ++ back) = (find? key front).or (find? key back) := by
  induction front with
  | nil => rfl
  | cons e front ih =>
    obtain ⟨k, v⟩ := e
    rw [List.cons_append, find?, find?]
    split
    · rfl
    · exact ih

/-- What is not found is not there. -/
theorem find?_eq_none {key : String} {entries : List (String × Toml)} :
    find? key entries = none ↔ ∀ e ∈ entries, e.1 ≠ key := by
  induction entries with
  | nil => simp [find?]
  | cons e entries ih =>
    obtain ⟨k, v⟩ := e
    rw [find?, List.forall_mem_cons]
    split
    · rename_i hkey
      exact iff_of_false nofun fun h => h.1 hkey.symm
    · rename_i hkey
      rw [ih, and_iff_right (Ne.symm hkey)]

/-- Where keys are distinct, every entry is found. -/
theorem find?_of_mem {entries : List (String × Toml)} (hkeys : (entries.map (·.1)).Nodup)
    {e : String × Toml} (he : e ∈ entries) : find? e.1 entries = some e.2 := by
  induction entries with
  | nil => cases he
  | cons d entries ih =>
    obtain ⟨k, v⟩ := d
    rw [List.map_cons, List.nodup_cons] at hkeys
    rw [find?]
    rcases List.mem_cons.1 he with rfl | hrest
    · rw [if_pos rfl]
    · have hkey : e.1 ≠ k := fun h => hkeys.1 (List.mem_map.2 ⟨e, hrest, h⟩)
      rw [if_neg hkey, ih hkeys.2 hrest]

/-! ### Laying over -/

/-- A value laid over what is there, if anything is. -/
def mergeOver (v : Toml) : Option Toml → Toml
  | some old => merge old v
  | none => v

/-- Each entry of the overlay is laid over what the base has under its key. -/
theorem mergeEntries_eq_map (base overlay : List (String × Toml)) :
    mergeEntries base overlay = overlay.map fun e => (e.1, mergeOver e.2 (find? e.1 base)) := by
  induction overlay with
  | nil => rw [mergeEntries]; rfl
  | cons e overlay ih =>
    obtain ⟨k, v⟩ := e
    rw [mergeEntries, ih, List.map_cons]
    cases find? k base <;> rfl

/-- The entries that an overlay leaves alone. -/
def keptEntries (base overlay : List (String × Toml)) : List (String × Toml) :=
  base.filter fun e => !(overlay.any fun o => o.1 == e.1)

/-- A table over a table: the overlay's entries, and those that it leaves alone. -/
theorem merge_table (base overlay : List (String × Toml)) :
    merge (table base) (table overlay)
      = table (mergeEntries base overlay ++ keptEntries base overlay) := by
  rw [merge]
  rfl

/-- A table is a list of entries. -/
theorem isTable_iff {v : Toml} : v.isTable = true ↔ ∃ entries, v = table entries := by
  cases v with
  | table entries => exact iff_of_true rfl ⟨entries, rfl⟩
  | _ => exact iff_of_false nofun nofun

/-- A leaf replaces whatever is there. -/
theorem merge_leaf (base : Toml) {overlay : Toml} (h : overlay.isTable = false) :
    base.merge overlay = overlay := by
  cases overlay with
  | table entries => cases h
  | _ => rw [merge]; exact nofun

/-- A leaf is replaced by whatever comes. -/
theorem leaf_merge {base : Toml} (h : base.isTable = false) (overlay : Toml) :
    base.merge overlay = overlay := by
  cases overlay with
  | table entries =>
    cases base with
    | table => cases h
    | _ => rw [merge]; exact nofun
  | _ => exact merge_leaf base rfl

/-- So a merge is a table where the overlay is. -/
theorem isTable_merge (base overlay : Toml) :
    (base.merge overlay).isTable = overlay.isTable := by
  cases overlay with
  | table entries =>
    cases base with
    | table old => rw [merge_table]; rfl
    | _ => rw [leaf_merge rfl]
  | _ => rw [merge_leaf base rfl]

/-- An entry of the overlay is found merged. -/
theorem find?_mergeEntries (key : String) (base overlay : List (String × Toml)) :
    find? key (mergeEntries base overlay)
      = (find? key overlay).map fun v => mergeOver v (find? key base) := by
  rw [mergeEntries_eq_map]
  induction overlay with
  | nil => rfl
  | cons e overlay ih =>
    obtain ⟨k, v⟩ := e
    rw [List.map_cons, find?, find?]
    split
    · rename_i hkey
      rw [hkey]
      rfl
    · exact ih

/-- An entry that the overlay does not have is found as it was. -/
theorem find?_keptEntries {key : String} (base : List (String × Toml))
    {overlay : List (String × Toml)} (h : find? key overlay = none) :
    find? key (keptEntries base overlay) = find? key base := by
  have hkept : (overlay.any fun o => o.1 == key) = false :=
    List.any_eq_false.2 fun e he => by simpa using find?_eq_none.1 h e he
  rw [keptEntries]
  induction base with
  | nil => rfl
  | cons e base ih =>
    obtain ⟨k, v⟩ := e
    rw [List.filter_cons]
    by_cases hkey : key = k
    · subst hkey
      rw [if_pos (by rw [hkept]; rfl), find?, find?, if_pos rfl, if_pos rfl]
    · rw [find?, if_neg hkey, ← ih]
      split
      · rw [find?, if_neg hkey]
      · rfl

/-- **What is under a key of a merged table:** the overlay's value laid over what was there, or
else what was there. -/
theorem find?_merged (key : String) (base overlay : List (String × Toml)) :
    find? key (mergeEntries base overlay ++ keptEntries base overlay)
      = match find? key overlay with
        | some v => some (mergeOver v (find? key base))
        | none => find? key base := by
  rw [find?_append, find?_mergeEntries]
  cases hfound : find? key overlay with
  | some v => rfl
  | none => exact find?_keptEntries base hfound

/-! ### Leaves -/

/-- The value at the end of a path, if it is no table. -/
def leaf? (path : List String) (v : Toml) : Option Toml := (v.at? path).filter (!·.isTable)

/-- A value leaves a path alone: it has nothing at its end and no leaf on the way. -/
def Passes (path : List String) (v : Toml) : Prop :=
  v.at? path = none ∧ ∀ front, front <+: path → front ≠ path → v.leaf? front = none

/-- At the end of a path stands a leaf or a table. -/
theorem leaf?_nil (v : Toml) : v.leaf? [] = if v.isTable then none else some v := by
  rw [leaf?, at?, Option.filter_some]
  cases v.isTable <;> rfl

/-- A leaf further down is one of the value under the next key. -/
theorem leaf?_cons (key : String) (path : List String) (v : Toml) :
    v.leaf? (key :: path) = (v.get? key).bind (leaf? path) := by
  rw [leaf?, at?]
  cases v.get? key <;> rfl

/-- No value leaves the empty path alone, for it stands at its end. -/
theorem not_passes_nil (v : Toml) : ¬v.Passes [] := fun h => nomatch h.1

/-- A path is left alone by tables all the way, up to where there is nothing. -/
theorem passes_cons {key : String} {path : List String} {v : Toml} :
    v.Passes (key :: path) ↔
      ∃ entries, v = table entries ∧ ∀ w, find? key entries = some w → w.Passes path := by
  constructor
  · rintro ⟨hend, hway⟩
    have htop := hway [] List.nil_prefix (List.cons_ne_nil key path).symm
    cases v with
    | table entries =>
      refine ⟨entries, rfl, fun w hw => ⟨?_, fun front hfront hne => ?_⟩⟩
      · rw [at?, get?, hw] at hend
        exact hend
      · have hleaf := hway (key :: front) (List.cons_prefix_cons.2 ⟨rfl, hfront⟩)
          fun h => hne (List.cons.inj h).2
        rw [leaf?_cons, get?, hw] at hleaf
        exact hleaf
    | _ => cases htop
  · rintro ⟨entries, rfl, hinner⟩
    refine ⟨?_, fun front hfront hne => ?_⟩
    · rw [at?, get?]
      cases hfound : find? key entries with
      | none => rfl
      | some w => exact (hinner w hfound).1
    · cases front with
      | nil => rfl
      | cons k front =>
        obtain ⟨rfl, hinside⟩ := List.cons_prefix_cons.1 hfront
        rw [leaf?_cons, get?]
        cases hfound : find? k entries with
        | none => rfl
        | some w => exact (hinner w hfound).2 front hinside fun h => hne (h ▸ rfl)

/-- A table leaves a path alone where it has nothing under the first key, or what it has does. -/
theorem passes_table {key : String} {path : List String} {entries : List (String × Toml)} :
    (table entries).Passes (key :: path) ↔ ∀ w, find? key entries = some w → w.Passes path := by
  rw [passes_cons]
  constructor
  · rintro ⟨_, hsame, hinner⟩
    exact Toml.table.inj hsame ▸ hinner
  · exact fun hinner => ⟨entries, rfl, hinner⟩

/-- A leaf is in the way of every path. -/
theorem not_passes_leaf {key : String} {path : List String} {v : Toml} (h : v.isTable = false) :
    ¬v.Passes (key :: path) := by
  intro hpasses
  obtain ⟨entries, rfl, -⟩ := passes_cons.1 hpasses
  cases h

/-- And has nothing below it. -/
theorem leaf?_of_leaf {key : String} {path : List String} {v : Toml} (h : v.isTable = false) :
    v.leaf? (key :: path) = none := by
  rw [leaf?_cons]
  cases v with
  | table => cases h
  | _ => rfl

/-- **What an overlay leaves alone stays as it is,** leaf or table. -/
theorem at?_merge {path : List String} {overlay : Toml} (h : overlay.Passes path) (base : Toml) :
    (base.merge overlay).at? path = base.at? path := by
  induction path generalizing base overlay with
  | nil => exact absurd h (not_passes_nil overlay)
  | cons key path ih =>
    obtain ⟨entries, rfl, hinner⟩ := passes_cons.1 h
    cases base with
    | table old =>
      rw [merge_table, at?, at?, get?, get?, find?_merged]
      cases hfound : find? key entries with
      | none => rfl
      | some v =>
        dsimp only
        cases hbase : find? key old with
        | none => exact (hinner v hfound).1
        | some w => exact ih (hinner v hfound) w
    | _ =>
      rw [leaf_merge rfl]
      exact h.1

/-- **Leaf by leaf:** after a merge the leaf at the end of a path is the overlay's, or the base's
where the overlay leaves the path alone. -/
theorem leaf?_merge (base overlay : Toml) (path : List String) (v : Toml) :
    (base.merge overlay).leaf? path = some v ↔
      overlay.leaf? path = some v ∨ overlay.Passes path ∧ base.leaf? path = some v := by
  induction path generalizing base overlay with
  | nil =>
    rw [or_iff_left fun h => not_passes_nil overlay h.1]
    cases hover : overlay.isTable with
    | false => rw [merge_leaf base hover]
    | true => rw [leaf?_nil, leaf?_nil, isTable_merge, hover, if_pos rfl, if_pos rfl]
  | cons key path ih =>
    cases hover : overlay.isTable with
    | false =>
      rw [merge_leaf base hover]
      exact (or_iff_left fun h => not_passes_leaf hover h.1).symm
    | true =>
      obtain ⟨entries, rfl⟩ := isTable_iff.1 hover
      cases hbase : base.isTable with
      | false =>
        rw [leaf_merge hbase, leaf?_of_leaf hbase]
        exact (or_iff_left fun h => nomatch h.2).symm
      | true =>
        obtain ⟨old, rfl⟩ := isTable_iff.1 hbase
        rw [merge_table, leaf?_cons, leaf?_cons, leaf?_cons, get?, get?, get?, find?_merged,
          passes_table]
        cases hfound : find? key entries with
        | none =>
          rw [and_iff_right fun w hw => nomatch hw]
          exact (or_iff_right nofun).symm
        | some laid =>
          have hpasses : (∀ w, some laid = some w → w.Passes path) ↔ laid.Passes path :=
            ⟨fun h => h laid rfl, fun h w hw => Option.some.inj hw ▸ h⟩
          rw [hpasses]
          cases find? key old with
          | none => exact (or_iff_left fun h => nomatch h.2).symm
          | some w =>
            -- Both lay something here: what they lay is merged in turn.
            exact ih w laid

/-! ### Laying over once more -/

/-- The keys of each table are distinct, at every depth that a merge looks at. -/
inductive Distinct : Toml → Prop
  | leaf {v : Toml} (hleaf : v.isTable = false) : Distinct v
  | table {entries : List (String × Toml)} (hkeys : (entries.map (·.1)).Nodup)
    (hvalues : ∀ e ∈ entries, Distinct e.2) : Distinct (table entries)

/-- An overlay with all keys of the base leaves nothing alone. -/
theorem keptEntries_eq_nil {base overlay : List (String × Toml)}
    (h : ∀ e ∈ base, ∃ o ∈ overlay, o.1 = e.1) : keptEntries base overlay = [] := by
  refine List.filter_eq_nil_iff.2 fun e he => ?_
  have hnamed : (overlay.any fun o => o.1 == e.1) = true := by
    obtain ⟨o, ho, hkey⟩ := h e he
    exact List.any_eq_true.2 ⟨o, ho, beq_iff_eq.2 hkey⟩
  rw [hnamed]
  exact Bool.false_ne_true

/-- A value laid over itself is itself. -/
theorem Distinct.merge_self {v : Toml} (h : v.Distinct) : v.merge v = v := by
  induction h with
  | leaf hleaf => exact merge_leaf _ hleaf
  | @table entries hkeys _ ih =>
    have hkept : keptEntries entries entries = [] := keptEntries_eq_nil fun e he => ⟨e, he, rfl⟩
    rw [merge_table, hkept, List.append_nil, mergeEntries_eq_map]
    congr 1
    refine (List.map_congr_left fun e he => ?_).trans (List.map_id' entries)
    rw [find?_of_mem hkeys he, mergeOver, ih e he]

/-- What an overlay left alone the first time it leaves alone again. -/
theorem keptEntries_merged (base overlay : List (String × Toml)) :
    keptEntries (mergeEntries base overlay ++ keptEntries base overlay) overlay
      = keptEntries base overlay := by
  have hlaid : keptEntries (mergeEntries base overlay) overlay = [] := by
    refine keptEntries_eq_nil fun e he => ?_
    rw [mergeEntries_eq_map] at he
    obtain ⟨o, ho, rfl⟩ := List.mem_map.1 he
    exact ⟨o, ho, rfl⟩
  have htwice : keptEntries (keptEntries base overlay) overlay = keptEntries base overlay :=
    List.filter_eq_self.2 fun e he => (List.mem_filter.1 he).2
  calc keptEntries (mergeEntries base overlay ++ keptEntries base overlay) overlay
      = keptEntries (mergeEntries base overlay) overlay
          ++ keptEntries (keptEntries base overlay) overlay := List.filter_append ..
    _ = keptEntries base overlay := by rw [hlaid, htwice, List.nil_append]

/-- **A second time changes nothing.** -/
theorem Distinct.merge_merge {overlay : Toml} (h : overlay.Distinct) (base : Toml) :
    (base.merge overlay).merge overlay = base.merge overlay := by
  induction h generalizing base with
  | leaf hleaf => rw [merge_leaf _ hleaf]; exact (merge_leaf _ hleaf).symm
  | @table entries hkeys hvalues ih =>
    cases hbase : base.isTable with
    | false => rw [leaf_merge hbase, (Distinct.table hkeys hvalues).merge_self]
    | true =>
      obtain ⟨old, rfl⟩ := isTable_iff.1 hbase
      rw [merge_table, merge_table, keptEntries_merged, mergeEntries_eq_map _ entries,
        mergeEntries_eq_map old entries]
      congr 2
      refine List.map_congr_left fun e he => ?_
      rw [← mergeEntries_eq_map, find?_merged, find?_of_mem hkeys he]
      cases find? e.1 old with
      | none => exact congrArg _ (hvalues e he).merge_self
      | some w => exact congrArg _ (ih e he w)

end Toml

end Raster
