/-
# Blanks at the ends, and letters in lower case

Trimming leaves what stands between blanks: a text is its trimmed part with blanks around it
(`exists_append_trimChars`), and blanks put around a trimmed text go again
(`trimChars_append`). What is trimmed neither begins nor ends with a blank, so trimming twice
changes nothing (`trimChars_trimChars`).

A letter is a blank in neither case (`isBlank_toLower`). So it does not matter whether a text
is trimmed first or put in lower case first (`trimChars_map`).
-/
import Mathlib.Data.List.TakeWhile
import Raster.Text

namespace Raster

namespace Text

/-- What is left when blanks were dropped does not start with one. -/
theorem head?_dropWhile_blank (cs : List Char) {c : Char}
    (h : (cs.dropWhile isBlank).head? = some c) : isBlank c = false := by
  have hnot := List.head?_dropWhile_not isBlank cs
  rw [h] at hnot
  exact hnot

/-- What neither begins nor ends with a blank is not trimmed. -/
theorem trimChars_eq_self {cs : List Char} (hhead : ∀ c, cs.head? = some c → isBlank c = false)
    (hlast : ∀ c, cs.getLast? = some c → isBlank c = false) : trimChars cs = cs := by
  have hkept : ∀ {ds : List Char}, (∀ c, ds.head? = some c → isBlank c = false) →
      ds.dropWhile isBlank = ds := by
    intro ds hds
    cases ds with
    | nil => rfl
    | cons d ds => exact List.dropWhile_cons_of_neg (Bool.eq_false_iff.1 (hds d rfl))
  rw [trimChars, hkept hhead, hkept fun c hc => hlast c (List.head?_reverse ▸ hc),
    List.reverse_reverse]

/-- What is trimmed neither begins nor ends with a blank. -/
theorem trimChars_trimChars (cs : List Char) : trimChars (trimChars cs) = trimChars cs := by
  refine trimChars_eq_self (fun c hc => ?_) fun c hc => ?_
  · have hbegins : trimChars cs <+: cs.dropWhile isBlank :=
      List.reverse_reverse (cs.dropWhile isBlank) ▸
        List.reverse_prefix.2 (List.dropWhile_suffix isBlank)
    obtain ⟨rest, hrest⟩ := hbegins
    refine head?_dropWhile_blank cs ?_
    rw [← hrest, List.head?_append, hc, Option.some_or]
  · rw [trimChars, List.getLast?_reverse] at hc
    exact head?_dropWhile_blank _ hc

/-- Trimming only leaves characters out. -/
theorem trimChars_sublist (cs : List Char) : (trimChars cs).Sublist cs := by
  have hback := (List.dropWhile_sublist isBlank (l := (cs.dropWhile isBlank).reverse)).reverse
  rw [List.reverse_reverse] at hback
  exact hback.trans (List.dropWhile_sublist isBlank)

/-- Where nothing is to be trimmed at the end, only the beginning is. -/
theorem trimChars_eq_dropWhile {cs : List Char}
    (hlast : ∀ c, cs.getLast? = some c → isBlank c = false) :
    trimChars cs = cs.dropWhile isBlank := by
  rw [trimChars]
  cases hkept : (cs.dropWhile isBlank).reverse with
  | nil => rw [List.reverse_eq_nil_iff.1 hkept]; rfl
  | cons c rest =>
    have hends : c :: rest <+: cs.reverse :=
      hkept ▸ List.reverse_prefix.2 (List.dropWhile_suffix isBlank)
    obtain ⟨front, hfront⟩ := hends
    have hc : cs.getLast? = some c := by rw [← List.head?_reverse, ← hfront]; rfl
    rw [List.dropWhile_cons_of_neg (Bool.eq_false_iff.1 (hlast c hc)), ← hkept,
      List.reverse_reverse]

/-! ### Blanks around a text -/

/-- Nothing but blanks. -/
def Blank (cs : List Char) : Prop := ∀ c ∈ cs, isBlank c = true

/-- Nothing is nothing but blanks. -/
theorem blank_nil : Blank [] := fun _ h => absurd h List.not_mem_nil

/-- Blanks behind blanks are blanks. -/
theorem Blank.append {front back : List Char} (hfront : Blank front) (hback : Blank back) :
    Blank (front ++ back) := fun c hc => (List.mem_append.1 hc).elim (hfront c) (hback c)

/-- Blanks in front are dropped. -/
theorem dropWhile_blank_append {front : List Char} (hfront : Blank front) (cs : List Char) :
    (front ++ cs).dropWhile isBlank = cs.dropWhile isBlank :=
  List.dropWhile_append_of_pos hfront

/-- **A text is its trimmed part with blanks around it.** -/
theorem exists_append_trimChars (cs : List Char) :
    ∃ front back, cs = front ++ trimChars cs ++ back ∧ Blank front ∧ Blank back := by
  refine ⟨cs.takeWhile isBlank, ((cs.dropWhile isBlank).reverse.takeWhile isBlank).reverse, ?_,
    fun c hc => List.mem_takeWhile_imp hc,
    fun c hc => List.mem_takeWhile_imp (List.mem_reverse.1 hc)⟩
  rw [trimChars, List.append_assoc, ← List.reverse_append, List.takeWhile_append_dropWhile,
    List.reverse_reverse, List.takeWhile_append_dropWhile]

/-- **Blanks around a text are trimmed away.** -/
theorem trimChars_append {front back : List Char} (hfront : Blank front) (hback : Blank back)
    (cs : List Char) : trimChars (front ++ cs ++ back) = trimChars cs := by
  have hreverse : Blank back.reverse := fun c hc => hback c (List.mem_reverse.1 hc)
  rw [List.append_assoc, trimChars, dropWhile_blank_append hfront, trimChars]
  by_cases hcs : Blank cs
  · have hnone : ∀ {ds : List Char}, Blank ds → ds.dropWhile isBlank = [] := fun h =>
      List.dropWhile_eq_nil_iff.2 h
    rw [hnone hcs, dropWhile_blank_append hcs, hnone hback]
  · -- a character that is no blank keeps what stands behind it from the first cut
    have hkept : cs.dropWhile isBlank ≠ [] := fun h => hcs (List.dropWhile_eq_nil_iff.1 h)
    rw [List.dropWhile_append, if_neg (by simpa using hkept), List.reverse_append,
      dropWhile_blank_append hreverse]

/-! ### Lower case -/

/-- A letter in upper case becomes the letter 32 code points behind it; all else stays. -/
theorem toLower_cases (c : Char) :
    c.toLower = c ∧ ¬(65 ≤ c.toNat ∧ c.toNat ≤ 90) ∨
      65 ≤ c.toNat ∧ c.toNat ≤ 90 ∧ c.toLower.toNat = c.toNat + 32 := by
  delta Char.toLower
  split
  · rename_i h
    have hfirst : 65 ≤ c.toNat := UInt32.le_iff_toNat_le.1 h.1
    have hlast : c.toNat ≤ 90 := UInt32.le_iff_toNat_le.1 h.2
    refine .inr ⟨hfirst, hlast, (UInt32.toNat_add _ _).trans ?_⟩
    exact Nat.mod_eq_of_lt (show c.toNat + 32 < 4294967296 by omega)
  · rename_i h
    exact .inl ⟨rfl, fun hupper => h
      ⟨UInt32.le_iff_toNat_le.2 hupper.1, UInt32.le_iff_toNat_le.2 hupper.2⟩⟩

/-- A character in lower case is no capital. -/
theorem isUpper_toLower (c : Char) : c.toLower.isUpper = false := by
  refine decide_eq_false ?_
  rintro ⟨hge, hle⟩
  have hfirst : 65 ≤ c.toLower.toNat := UInt32.le_iff_toNat_le.1 hge
  have hlast : c.toLower.toNat ≤ 90 := UInt32.le_iff_toNat_le.1 hle
  rcases toLower_cases c with ⟨hsame, hnot⟩ | ⟨hupper, -, hlower⟩
  · rw [hsame] at hfirst hlast
    exact hnot ⟨hfirst, hlast⟩
  · omega

/-- Between `A` and `z` there is no blank. -/
theorem isBlank_eq_false {c : Char} (hfirst : 65 ≤ c.toNat) (hlast : c.toNat ≤ 122) :
    isBlank c = false := by
  simp only [isBlank, Bool.or_eq_false_iff, Bool.and_eq_false_iff, decide_eq_false_iff_not,
    beq_eq_false_iff_ne]
  omega

/-- So lower case makes no blank and removes none. -/
theorem isBlank_toLower (c : Char) : isBlank c.toLower = isBlank c := by
  rcases toLower_cases c with ⟨hsame, -⟩ | ⟨hfirst, hlast, hlower⟩
  · rw [hsame]
  · rw [isBlank_eq_false hfirst (by omega), isBlank_eq_false (by omega) (by omega)]

/-- What leaves blanks blanks, and nothing else, may be done before or after trimming. -/
theorem trimChars_map {f : Char → Char} (hf : ∀ c, isBlank (f c) = isBlank c) (cs : List Char) :
    trimChars (cs.map f) = (trimChars cs).map f := by
  have hsame : isBlank ∘ f = isBlank := funext hf
  rw [trimChars, trimChars, List.dropWhile_map, hsame, ← List.map_reverse, List.dropWhile_map,
    hsame, List.map_reverse]

end Text

end Raster
