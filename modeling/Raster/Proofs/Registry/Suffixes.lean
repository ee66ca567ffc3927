/-
# Suffixes

A suffix is kept from its last dot on (`normalSuffix`), so it has one dot, at its start.
What a name ends in can then be told in two ways:

| told by | |
| --- | --- |
| `matchesFilename` | the name in lower case ends with the suffix |
| `normalSuffix` | from its last dot on, the name in lower case is the suffix |

They agree on names that have a suffix (`Dotted`): a dot, and no blank behind it at the
end, which the second one would trim (`matchesFilename_withSuffixes`).
-/
import Raster.Proofs.Text.Trim
import Raster.Registry.Descriptor

namespace Raster

namespace Text

/-- A text is not cut where there is nothing to cut at. -/
theorem cutLast_eq_none {sep : Char} {cs : List Char} : cutLast sep cs = none ↔ sep ∉ cs := by
  induction cs with
  | nil => simp [cutLast]
  | cons c cs ih =>
    rw [cutLast]
    cases hrest : cutLast sep cs with
    | some cut => simp [← ih, hrest]
    | none => simp [← ih, hrest, eq_comm]

/-- It is cut at the last separator. -/
theorem cutLast_append {sep : Char} (before : List Char) {after : List Char} (h : sep ∉ after) :
    cutLast sep (before ++ sep :: after) = some (before, after) := by
  induction before with
  | nil => rw [List.nil_append, cutLast, cutLast_eq_none.2 h, if_pos rfl]
  | cons b before ih => rw [List.cons_append, cutLast, ih]

/-- **The last occurrence** is the one with none behind it. -/
theorem cutLast_eq_some {sep : Char} {cs before after : List Char} :
    cutLast sep cs = some (before, after) ↔ cs = before ++ sep :: after ∧ sep ∉ after := by
  constructor
  · intro hcut
    have hsep : sep ∈ cs.reverse := List.mem_reverse.2 <| Decidable.not_not.1 fun hnot => by
      simp [cutLast_eq_none.2 hnot] at hcut
    obtain ⟨back, front, hcs, hback⟩ := List.eq_append_cons_of_mem hsep
    rw [List.reverse_eq_iff, List.reverse_append, List.reverse_cons, List.append_assoc,
      List.singleton_append] at hcs
    rw [← List.mem_reverse] at hback
    rw [hcs, cutLast_append _ hback, Option.some.injEq, Prod.mk.injEq] at hcut
    obtain ⟨rfl, rfl⟩ := hcut
    exact ⟨hcs, hback⟩
  · rintro ⟨rfl, hafter⟩
    exact cutLast_append before hafter

end Text

/-! ### The last dot -/

/-- A suffix has a dot at its start and no other. -/
theorem exists_suffixChars (cs : List Char) : ∃ rest, suffixChars cs = '.' :: rest ∧ '.' ∉ rest := by
  rw [suffixChars]
  cases hcut : Text.cutLast '.' cs with
  | none => exact ⟨cs, rfl, Text.cutLast_eq_none.1 hcut⟩
  | some cut => exact ⟨cut.2, rfl, (Text.cutLast_eq_some.1 hcut).2⟩

/-- **From the last dot on:** the one ending with a dot at its start and no other. -/
theorem suffixChars_eq_iff {cs tail : List Char} (hdot : '.' ∈ cs) :
    suffixChars cs = tail ↔ tail <:+ cs ∧ ∃ rest, tail = '.' :: rest ∧ '.' ∉ rest := by
  obtain ⟨⟨before, after⟩, hcut⟩ := Option.ne_none_iff_exists'.1 fun hnone =>
    Text.cutLast_eq_none.1 hnone hdot
  obtain ⟨hcs, hafter⟩ := Text.cutLast_eq_some.1 hcut
  rw [suffixChars, hcut]
  constructor
  · rintro rfl
    exact ⟨⟨before, hcs.symm⟩, after, rfl, hafter⟩
  · rintro ⟨⟨front, hfront⟩, rest, rfl, hrest⟩
    have hagain := Text.cutLast_eq_some.2 ⟨hfront.symm, hrest⟩
    rw [hcut, Option.some.injEq, Prod.mk.injEq] at hagain
    rw [hagain.2]

/-- Nothing in front of a dot matters. -/
theorem suffixChars_of_suffix {cs ds : List Char} (hdot : '.' ∈ ds) (hends : ds <:+ cs) :
    suffixChars cs = suffixChars ds := by
  obtain ⟨hsuffix, hshape⟩ := (suffixChars_eq_iff hdot).1 rfl
  exact (suffixChars_eq_iff (hends.subset hdot)).2 ⟨hsuffix.trans hends, hshape⟩

/-! ### Names with a suffix -/

/-- A name that has a suffix: options aside, there is a dot in it and no blank at its end. -/
def Dotted (name : String) : Prop :=
  '.' ∈ (Options.splitName name).1.toList ∧
    (Options.splitName name).1.toList.getLast?.map Text.isBlank = some false

instance (name : String) : Decidable (Dotted name) := inferInstanceAs (Decidable (_ ∧ _))

/-- The suffix of a name is what it ends in, in lower case. -/
theorem Dotted.toList_normalSuffix {name : String} (h : Dotted name) :
    (normalSuffix name).toList =
      suffixChars (Text.lower (Options.splitName name).1).toList := by
  obtain ⟨hdot, hend⟩ := h
  have hlast : ∀ c, (Options.splitName name).1.toList.getLast? = some c →
      Text.isBlank c = false := by
    intro c hc
    rw [hc] at hend
    exact Option.some.inj hend
  rw [normalSuffix, Text.lower, String.toList_ofList, String.toList_ofList,
    Text.trimChars_eq_dropWhile hlast]
  have hkept : '.' ∈ (Options.splitName name).1.toList.dropWhile Text.isBlank := by
    rw [← List.takeWhile_append_dropWhile (p := Text.isBlank)
      (l := (Options.splitName name).1.toList), List.mem_append] at hdot
    exact hdot.resolve_left fun hblank =>
      absurd (List.all_eq_true.1 List.all_takeWhile _ hblank) (by decide)
  exact (suffixChars_of_suffix (List.mem_map.2 ⟨'.', hkept, rfl⟩)
    ((List.dropWhile_suffix _).map _)).symm

namespace Descriptor

/-- **A name ends in a suffix that is kept if it has one that is kept.** -/
theorem matchesFilename_withSuffixes {d : Descriptor} {texts : List String} {name : String}
    (hname : Dotted name) :
    (d.withSuffixes texts).matchesFilename (Options.splitName name).1 = true ↔
      normalSuffix name ∈ (d.withSuffixes texts).suffixes := by
  have hdot : '.' ∈ (Text.lower (Options.splitName name).1).toList := by
    rw [Text.lower, String.toList_ofList]
    exact List.mem_map_of_mem hname.1
  have hends : ∀ text, Text.endsWith (Text.lower (Options.splitName name).1) (normalSuffix text) =
      true ↔ normalSuffix text = normalSuffix name := by
    intro text
    rw [Text.endsWith, List.isSuffixOf_iff_suffix, ← String.toList_inj,
      hname.toList_normalSuffix, eq_comm, suffixChars_eq_iff hdot, iff_self_and]
    rw [normalSuffix, String.toList_ofList]
    exact fun _ => exists_suffixChars _
  rw [matchesFilename, withSuffixes, List.any_map, List.any_eq_true, List.mem_map]
  simp only [Function.comp_apply, hends]

end Descriptor

end Raster
