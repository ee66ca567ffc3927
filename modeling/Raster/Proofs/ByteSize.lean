/-
# Byte counts, written and read

A count is read from the texts that say it (`Denotes`): a number, a unit and perhaps a `b`, in
lower case or capitals.

| in the text | |
| --- | --- |
| blanks | at both ends, and behind the number |
| number | digits, with or without a plus sign |
| unit | none, `k`, `m` or `g`: times 1, 2^10, 2^20 or 2^30 |
| `b` | at most one |

What is read is the number times the unit, and a product of 2^64 or more is refused
(`parse_denotes`). A count that is shown says itself (`exists_denotes_text`).
-/
import Mathlib.Algebra.Group.Nat.Defs
import Raster.ByteSize
import Raster.Proofs.Text.Number
import Raster.Proofs.Text.Trim

namespace Raster

namespace ByteSize

/-- How units are written, and what they stand for. -/
inductive Unit : List Char → Nat → Prop
  | none : Unit [] 1
  | kilo : Unit ['k'] (2 ^ 10)
  | mega : Unit ['m'] (2 ^ 20)
  | giga : Unit ['g'] (2 ^ 30)

/-- In lower case, a text is a number, a unit and perhaps a `b`, with blanks around it and behind
the number. -/
def Denotes (s : String) (n scale : Nat) : Prop :=
  ∃ front number gap unit mark back : List Char,
    s.toList.map Char.toLower = front ++ (number ++ gap ++ unit ++ mark) ++ back ∧
      Text.Blank front ∧ Text.Blank gap ∧ Text.Blank back ∧
      Number.Spells (String.ofList number) n ∧ Unit unit scale ∧ (mark = [] ∨ mark = ['b'])

/-! ### Units and marks -/

/-- No unit is zero, so a size in units fits a word only if its number does. -/
theorem Unit.pos {unit : List Char} {scale : Nat} (hunit : Unit unit scale) : 0 < scale := by
  cases hunit <;> decide

/-- Drops a `b` at the end. -/
def dropMark (cs : List Char) : List Char := if cs.getLast? = some 'b' then cs.dropLast else cs

/-- The mark of bytes goes. -/
theorem dropMark_append (cs : List Char) : dropMark (cs ++ ['b']) = cs := by
  rw [dropMark, if_pos List.getLast?_concat, List.dropLast_concat]

/-- What goes is the mark or nothing. -/
theorem exists_mark (cs : List Char) :
    ∃ mark, cs = dropMark cs ++ mark ∧ (mark = [] ∨ mark = ['b']) := by
  rw [dropMark]
  split
  · rename_i hlast
    obtain ⟨front, rfl⟩ := List.getLast?_eq_some_iff.1 hlast
    exact ⟨['b'], by rw [List.dropLast_concat], .inr rfl⟩
  · exact ⟨[], (List.append_nil cs).symm, .inl rfl⟩

/-- Every letter of the table is a unit by itself. -/
theorem unit_of_mem {unit : Char} {scale : Nat} (hmem : (unit, scale) ∈ units) :
    Unit [unit] scale := by
  simp only [units, List.mem_cons, Prod.mk.injEq, List.not_mem_nil, or_false] at hmem
  rcases hmem with ⟨rfl, rfl⟩ | ⟨rfl, rfl⟩ | ⟨rfl, rfl⟩
  · exact .giga
  · exact .mega
  · exact .kilo

/-- What is cut off as a unit is one. -/
theorem exists_unit (cs : List Char) :
    ∃ unit, cs = (splitUnit cs).1 ++ unit ∧ Unit unit (splitUnit cs).2 := by
  rw [splitUnit]
  split
  · exact ⟨[], (List.append_nil cs).symm, .none⟩
  · rename_i c hlast
    obtain ⟨front, rfl⟩ := List.getLast?_eq_some_iff.1 hlast
    split
    · rename_i u scale hfound
      have hsame := List.find?_some hfound
      obtain rfl : u = c := by simpa using hsame
      refine ⟨[u], by rw [List.dropLast_concat], unit_of_mem (List.mem_of_find?_eq_some hfound)⟩
    · exact ⟨[], (List.append_nil _).symm, .none⟩

/-- A character of a number, or a blank: neither ends a unit nor is a mark. -/
def Plain (c : Char) : Prop := c ∉ ['b', 'k', 'm', 'g']

/-- Blanks are plain characters: no unit and no mark. -/
theorem plain_of_isBlank {c : Char} (hblank : Text.isBlank c = true) : Plain c := by
  intro hmem
  simp only [List.mem_cons, List.not_mem_nil, or_false] at hmem
  rcases hmem with rfl | rfl | rfl | rfl <;> cases hblank

/-- A unit is cut off, and nothing else. -/
theorem splitUnit_append {unit : List Char} {scale : Nat} (hunit : Unit unit scale)
    {cs : List Char} (hplain : ∀ c ∈ cs, Plain c) : splitUnit (cs ++ unit) = (cs, scale) := by
  have hletter : ∀ {c : Char} {k : Nat}, units.find? (fun u => u.1 == c) = some (c, k) →
      splitUnit (cs ++ [c]) = (cs, k) := by
    intro c k hfound
    rw [splitUnit, List.getLast?_concat]
    dsimp only
    rw [hfound, List.dropLast_concat]
  cases hunit with
  | kilo => exact hletter rfl
  | mega => exact hletter rfl
  | giga => exact hletter rfl
  | none =>
    rw [List.append_nil, splitUnit]
    split
    · rfl
    · rename_i c hlast
      have hc := hplain c (List.mem_of_getLast? hlast)
      have hnone : units.find? (fun u => u.1 == c) = none := by
        simp only [Plain, List.mem_cons, List.not_mem_nil, or_false, not_or] at hc
        simp [units, Ne.symm hc.2.1, Ne.symm hc.2.2.1, Ne.symm hc.2.2.2]
      rw [hnone]

/-! ### What a text says -/

/-- A text in lower case, without the blanks around it and a `b`. -/
def core (s : String) : List Char := dropMark (Text.trimChars (s.toList.map Char.toLower))

section Number

variable {number : List Char} {n : Nat} (hspells : Number.Spells (String.ofList number) n)

include hspells

/-- A number has a digit. -/
theorem number_ne_nil : number ≠ [] := by
  obtain ⟨ds, hs, hne, -⟩ := hspells
  rw [String.toList_ofList] at hs
  rcases hs with rfl | rfl
  · exact hne
  · exact List.cons_ne_nil _ _

/-- Its characters are digits and the plus sign, by their code points. -/
theorem toNat_of_mem_number {c : Char} (hc : c ∈ number) : 43 ≤ c.toNat ∧ c.toNat ≤ 57 :=
  Number.toNat_of_mem_spells hspells (String.toList_ofList.symm ▸ hc)

/-- So none of them is a blank, and trimming stops at a number. -/
theorem isBlank_of_mem_number {c : Char} (hc : c ∈ number) : Text.isBlank c = false := by
  obtain ⟨hfirst, hlast⟩ := toNat_of_mem_number hspells hc
  simp only [Text.isBlank, Bool.or_eq_false_iff, Bool.and_eq_false_iff, decide_eq_false_iff_not,
    beq_eq_false_iff_ne]
  omega

/-- And none of them is taken for a unit or a mark. -/
theorem plain_of_mem_number {c : Char} (hc : c ∈ number) : Plain c := by
  obtain ⟨-, hlast⟩ := toNat_of_mem_number hspells hc
  intro hmem
  simp only [List.mem_cons, List.not_mem_nil, or_false] at hmem
  rcases hmem with rfl | rfl | rfl | rfl <;> exact absurd hlast (by decide)

/-- Blanks behind a number are trimmed away. -/
theorem trimChars_number_blank {gap : List Char} (hgap : Text.Blank gap) :
    Text.trimChars (number ++ gap) = number := by
  have htrim := Text.trimChars_append Text.blank_nil hgap number
  rw [List.nil_append] at htrim
  rw [htrim]
  exact Text.trimChars_eq_self
    (fun _ hc => isBlank_of_mem_number hspells (List.mem_of_head? hc))
    fun _ hc => isBlank_of_mem_number hspells (List.mem_of_getLast? hc)

/-- Nothing is trimmed between a number and a letter. -/
theorem trimChars_number_append (gap : List Char) {c : Char} (hc : Text.isBlank c = false) :
    Text.trimChars (number ++ gap ++ [c]) = number ++ gap ++ [c] := by
  obtain ⟨d, ds, rfl⟩ := List.exists_cons_of_ne_nil (number_ne_nil hspells)
  refine Text.trimChars_eq_self (fun e he => ?_) fun e he => ?_
  · obtain rfl : d = e := Option.some.inj he
    exact isBlank_of_mem_number hspells List.mem_cons_self
  · rw [List.getLast?_concat] at he
    exact Option.some.inj he ▸ hc

/-- The core of a number with its unit: the blanks behind the number stay where a letter follows. -/
theorem exists_dropMark {gap unit mark : List Char} {scale : Nat} (hgap : Text.Blank gap)
    (hunit : Unit unit scale) (hmark : mark = [] ∨ mark = ['b']) :
    ∃ gap' : List Char, Text.Blank gap' ∧
      dropMark (Text.trimChars (number ++ gap ++ unit ++ mark)) = number ++ gap' ++ unit := by
  have hletter : ∀ {c : Char}, Text.isBlank c = false → c ≠ 'b' →
      dropMark (Text.trimChars (number ++ gap ++ [c] ++ [])) = number ++ gap ++ [c] := by
    intro c hblank hne
    rw [List.append_nil, trimChars_number_append hspells gap hblank, dropMark,
      List.getLast?_concat, if_neg fun h => hne (Option.some.inj h)]
  rcases hmark with rfl | rfl
  · cases hunit with
    | kilo => exact ⟨gap, hgap, hletter (by decide) (by decide)⟩
    | mega => exact ⟨gap, hgap, hletter (by decide) (by decide)⟩
    | giga => exact ⟨gap, hgap, hletter (by decide) (by decide)⟩
    | none =>
      refine ⟨[], Text.blank_nil, ?_⟩
      rw [List.append_nil, List.append_nil, trimChars_number_blank hspells hgap, dropMark, if_neg,
        List.append_nil, List.append_nil]
      exact fun hlast => plain_of_mem_number hspells (List.mem_of_getLast? hlast) (by decide)
  · refine ⟨gap, hgap, ?_⟩
    rw [List.append_assoc number, trimChars_number_append hspells (gap ++ unit) (by decide),
      dropMark_append, ← List.append_assoc]

end Number

/-- **What a text says** is the number and the unit that its core is cut into. -/
theorem denotes_iff {s : String} {n scale : Nat} : Denotes s n scale ↔
    Number.Spells (String.ofList (Text.trimChars (splitUnit (core s)).1)) n ∧
      (splitUnit (core s)).2 = scale := by
  constructor
  · rintro ⟨front, number, gap, unit, mark, back, htext, hfront, hgap, hback, hspells, hunit, hmark⟩
    obtain ⟨gap', hgap', hcore⟩ := exists_dropMark hspells hgap hunit hmark
    have hplain : ∀ c ∈ number ++ gap', Plain c := by
      intro c hc
      rcases List.mem_append.1 hc with hc | hc
      · exact plain_of_mem_number hspells hc
      · exact plain_of_isBlank (hgap' c hc)
    rw [core, htext, Text.trimChars_append hfront hback, hcore, splitUnit_append hunit hplain]
    exact ⟨(trimChars_number_blank hspells hgap').symm ▸ hspells, rfl⟩
  · rintro ⟨hspells, rfl⟩
    -- The pieces that the reader cuts off, put together again in the order of the text.
    obtain ⟨front, back, htext, hfront, hback⟩ :=
      Text.exists_append_trimChars (s.toList.map Char.toLower)
    obtain ⟨mark, hcore, hmark⟩ := exists_mark (Text.trimChars (s.toList.map Char.toLower))
    obtain ⟨unit, hcut, hunit⟩ := exists_unit (core s)
    obtain ⟨inner, gap, hnumber, hinner, hgap⟩ :=
      Text.exists_append_trimChars (splitUnit (core s)).1
    have hbody : Text.trimChars (s.toList.map Char.toLower)
        = inner ++ (Text.trimChars (splitUnit (core s)).1 ++ gap ++ unit ++ mark) := by
      calc Text.trimChars (s.toList.map Char.toLower)
          = core s ++ mark := hcore
        _ = (splitUnit (core s)).1 ++ unit ++ mark := by rw [← hcut]
        _ = inner ++ Text.trimChars (splitUnit (core s)).1 ++ gap ++ unit ++ mark := by
          rw [← hnumber]
        _ = _ := by simp only [List.append_assoc]
    refine ⟨front ++ inner, _, gap, unit, mark, back, ?_, hfront.append hinner, hgap, hback,
      hspells, hunit, hmark⟩
    rw [List.append_assoc front inner, ← hbody]
    exact htext

/-- A count is read if the core of its text is cut into a number and a unit. -/
theorem parse_core {s : String} {size : ByteSize} : parse s = .ok size ↔
    core s ≠ [] ∧ ∃ n, Number.unsigned (UInt64.size - 1)
        (String.ofList (Text.trimChars (splitUnit (core s)).1)) = .ok n ∧
      n * (splitUnit (core s)).2 < UInt64.size ∧
      UInt64.ofNat (n * (splitUnit (core s)).2) = size.bytes := by
  have hcore : (if ((Text.trimChars s.toList).map Char.toLower).getLast? = some 'b'
      then ((Text.trimChars s.toList).map Char.toLower).dropLast
      else (Text.trimChars s.toList).map Char.toLower) = core s := by
    rw [core, Text.trimChars_map Text.isBlank_toLower, dropMark]
  rw [Number.unsigned, String.toList_ofList, parse]
  dsimp only
  rw [hcore]
  have hrefused : ∀ message : String,
      ¬(Except.error message : Except String ByteSize) = .ok size := by
    intro message h
    cases h
  split
  · rename_i hempty
    exact iff_of_false (hrefused _) fun h => h.1 (List.isEmpty_iff.1 hempty)
  · rename_i hsome
    rw [and_iff_right fun h => hsome (List.isEmpty_iff.2 h)]
    split
    · rename_i hnumber
      rw [hnumber]
      refine iff_of_false (hrefused _) ?_
      rintro ⟨n, hsame, -⟩
      cases hsame
    · rename_i n hnumber
      rw [hnumber]
      split
      · rename_i hfits
        constructor
        · intro h
          cases h
          exact ⟨n, rfl, hfits, rfl⟩
        · rintro ⟨m, hsame, -, hsize⟩
          cases hsame
          exact congrArg (Except.ok ∘ ByteSize.mk) hsize
      · rename_i hlarge
        refine iff_of_false (hrefused _) ?_
        rintro ⟨m, hsame, hfits, -⟩
        cases hsame
        exact hlarge hfits

/-- **A count is read** from the texts that say it, if it fits a word. -/
theorem parse_eq_ok {s : String} {size : ByteSize} : parse s = .ok size ↔
    ∃ n scale, Denotes s n scale ∧ n * scale < UInt64.size ∧ size.bytes.toNat = n * scale := by
  rw [parse_core]
  constructor
  · rintro ⟨-, n, hnumber, hfits, hsize⟩
    refine ⟨n, _, denotes_iff.2 ⟨(Number.unsigned_eq_ok.1 hnumber).1, rfl⟩, hfits, ?_⟩
    rw [← hsize]
    exact UInt64.toNat_ofNat_of_lt' hfits
  · rintro ⟨n, scale, hdenotes, hfits, hsize⟩
    obtain ⟨hspells, rfl⟩ := denotes_iff.1 hdenotes
    obtain ⟨unit, -, hunit⟩ := exists_unit (core s)
    have hsmall : n ≤ UInt64.size - 1 :=
      Nat.le_sub_one_of_lt (Nat.lt_of_le_of_lt (Nat.le_mul_of_pos_right n hunit.pos) hfits)
    have hsome : core s ≠ [] := by
      intro hempty
      rw [hempty] at hspells
      exact number_ne_nil hspells rfl
    refine ⟨hsome, n, Number.unsigned_eq_ok.2 ⟨hspells, hsmall⟩, hfits, ?_⟩
    rw [← hsize, UInt64.ofNat_toNat]

/-- **A count that is shown says itself.** -/
theorem exists_denotes_text (size : ByteSize) :
    ∃ n scale, Denotes size.text n scale ∧ n * scale = size.bytes.toNat := by
  have hdigits : ∀ n : Nat, n.repr.toList.map Char.toLower = n.repr.toList := by
    refine fun n => (List.map_congr_left fun c hc => ?_).trans (List.map_id _)
    obtain ⟨-, hlast⟩ := Number.toNat_of_mem_spells (Number.spells_repr n) hc
    rcases Text.toLower_cases c with ⟨hsame, -⟩ | ⟨hupper, -⟩
    · exact hsame
    · omega
  have hdenotes : ∀ {n scale : Nat} {unit : List Char} {s : String}, Unit unit scale →
      s.toList.map Char.toLower = n.repr.toList ++ unit → Denotes s n scale := by
    intro n scale unit s hunit htext
    refine ⟨[], n.repr.toList, [], unit, [], [], ?_, Text.blank_nil, Text.blank_nil, Text.blank_nil,
      by rw [String.ofList_toList]; exact Number.spells_repr n, hunit, .inl rfl⟩
    simpa using htext
  rw [text]
  split
  · rename_i unit scale hfound
    have hunit := unit_of_mem (List.mem_of_find?_eq_some hfound)
    have hdivides := List.find?_some hfound
    rw [Bool.and_eq_true, decide_eq_true_eq, beq_iff_eq] at hdivides
    refine ⟨size.bytes.toNat / scale, scale, hdenotes hunit ?_,
      Nat.div_mul_cancel (Nat.dvd_of_mod_eq_zero hdivides.2)⟩
    have hlower : (String.singleton unit).toList.map Char.toLower = [unit] := by
      cases hunit <;> rfl
    rw [String.toList_append, List.map_append, Nat.toString_eq_repr, hdigits, hlower]
  · refine ⟨size.bytes.toNat, 1, hdenotes .none ?_, Nat.mul_one _⟩
    rw [List.append_nil]
    exact hdigits _

/-- **Byte counts are read exactly:** what is shown is read again, and a text is read as the number
it says times its unit, unless that is 2^64 or more. -/
theorem parse_denotes :
    (∀ size : ByteSize, parse size.text = .ok size) ∧
    (∀ (s : String) (size : ByteSize), parse s = .ok size ↔
      ∃ n scale, Denotes s n scale ∧ n * scale < 2 ^ 64 ∧ size.bytes.toNat = n * scale) ∧
    ∀ s : String, (∃ message, parse s = .error message) ↔
      ∀ n scale, Denotes s n scale → 2 ^ 64 ≤ n * scale := by
  refine ⟨fun size => ?_, fun s size => parse_eq_ok, fun s => ?_⟩
  · obtain ⟨n, scale, hdenotes, hsize⟩ := exists_denotes_text size
    exact parse_eq_ok.2 ⟨n, scale, hdenotes, hsize ▸ size.bytes.toNat_lt, hsize.symm⟩
  · constructor
    · rintro ⟨message, herror⟩ n scale hdenotes
      refine Nat.le_of_not_lt fun hfits => ?_
      have hok := parse_eq_ok.2 ⟨n, scale, hdenotes, hfits, UInt64.toNat_ofNat_of_lt' hfits⟩
      rw [herror] at hok
      cases hok
    · intro hlarge
      cases hread : parse s with
      | error message => exact ⟨message, rfl⟩
      | ok size =>
        obtain ⟨n, scale, hdenotes, hfits, -⟩ := parse_eq_ok.1 hread
        exact absurd (hlarge n scale hdenotes) (Nat.not_le_of_lt hfits)

/-- A count with a plus sign, blanks, a capital unit and a `B`. -/
theorem parse_denotes_spaced : Denotes " +7 KB " 7 (2 ^ 10) ∧ parse " +7 KB " = .ok ⟨7168⟩ := by
  have hblank : Text.Blank [' '] := by simp [Text.Blank, Text.isBlank]
  have hdenotes : Denotes " +7 KB " 7 (2 ^ 10) :=
    ⟨[' '], ['+', '7'], [' '], ['k'], ['b'], [' '], by decide, hblank, hblank, hblank,
      ⟨['7'], .inr rfl, by decide, List.forall_mem_singleton.2 rfl, rfl⟩, .kilo, .inr rfl⟩
  exact ⟨hdenotes, (parse_denotes.2.1 _ _).2 ⟨7, 2 ^ 10, hdenotes, by decide, rfl⟩⟩

end ByteSize

end Raster
