/-
# What number texts say

An unsigned number is written with ASCII digits, with or without a plus sign in front
(`Number.Spells`). Reading digits refuses a value as soon as it grows past the limit; since
it only grows, that is as good as looking at the whole value (`unsigned_eq_ok`). So a word is
read from exactly the texts of its value, whatever zeros they begin with (`word32_eq_ok`,
`word64_eq_ok`).
-/
import Raster.Proofs.Result
import Raster.Text.Number

namespace Raster

namespace Number

/-- A text says a number: digits for it, with or without a plus sign. -/
def Spells (s : String) (n : Nat) : Prop :=
  ∃ ds : List Char, (s.toList = ds ∨ s.toList = '+' :: ds) ∧ ds ≠ [] ∧
    (∀ c ∈ ds, c.isDigit = true) ∧ digitsValue ds = n

/-- A number is said by its decimal digits. -/
theorem spells_repr (n : Nat) : Spells n.repr n := by
  refine ⟨Nat.toDigits 10 n, .inl Nat.toList_repr, Nat.toDigits_ne_nil,
    fun c hc => Nat.isDigit_of_mem_toDigits (by decide) (by decide) hc, ?_⟩
  have hvalue := Nat.ofDigitChars_ten_toDigits (n := n)
  simp only [Nat.ofDigitChars, Nat.mul_comm 10] at hvalue
  exact hvalue

/-- Digits and a plus sign are no blanks and no letters. -/
theorem toNat_of_mem_spells {s : String} {n : Nat} (hspells : Spells s n) {c : Char}
    (hc : c ∈ s.toList) : 43 ≤ c.toNat ∧ c.toNat ≤ 57 := by
  have hdigit : ∀ {d : Char}, d.isDigit = true → 43 ≤ d.toNat ∧ d.toNat ≤ 57 := by
    intro d hd
    rw [Char.isDigit, Bool.and_eq_true, decide_eq_true_eq, decide_eq_true_eq] at hd
    have hfirst : 48 ≤ d.toNat := UInt32.le_iff_toNat_le.1 hd.1
    have hlast : d.toNat ≤ 57 := UInt32.le_iff_toNat_le.1 hd.2
    omega
  obtain ⟨ds, hs, -, hall, -⟩ := hspells
  rcases hs with hs | hs
  · exact hdigit (hall c (hs ▸ hc))
  · rcases List.mem_cons.1 (hs ▸ hc) with rfl | hmem
    · decide
    · exact hdigit (hall c hmem)

/-- The value after one more digit. -/
def shiftIn (acc : Nat) (c : Char) : Nat := acc * 10 + (c.toNat - 48)

/-- Digits make a number no smaller, so one that is too large stays so. -/
theorem le_foldl_shiftIn (cs : List Char) (acc : Nat) : acc ≤ cs.foldl shiftIn acc := by
  induction cs generalizing acc with
  | nil => exact Nat.le_refl acc
  | cons c cs ih =>
    calc acc ≤ acc * 10 := Nat.le_mul_of_pos_right acc (by decide)
      _ ≤ shiftIn acc c := Nat.le_add_right ..
      _ ≤ _ := ih _

/-- **Digits are read** if they are digits and their value is not above the limit. -/
theorem digits_eq_ok {limit : Nat} {excess : NumberFault} {cs : List Char} {acc n : Nat}
    (hacc : acc ≤ limit) : digits limit excess acc cs = .ok n ↔
      (∀ c ∈ cs, c.isDigit = true) ∧ cs.foldl shiftIn acc = n ∧ n ≤ limit := by
  induction cs generalizing acc with
  | nil =>
    rw [digits, Except.ok.injEq, List.foldl_nil]
    refine ⟨?_, fun h => h.2.1⟩
    rintro rfl
    exact ⟨fun c hc => absurd hc List.not_mem_nil, rfl, hacc⟩
  | cons c cs ih =>
    rw [digits, digit?, List.forall_mem_cons, List.foldl_cons]
    by_cases hdigit : c.isDigit = true
    · rw [if_pos hdigit]
      simp only [hdigit, true_and]
      split
      · rename_i hlarge
        refine iff_of_false nofun ?_
        rintro ⟨-, hvalue, hle⟩
        have hgrows := le_foldl_shiftIn cs (shiftIn acc c)
        rw [hvalue] at hgrows
        exact absurd (Nat.le_trans hgrows hle) (Nat.not_le_of_lt hlarge)
      · rename_i hfits
        exact ih (Nat.le_of_not_lt hfits)
    · rw [if_neg hdigit]
      exact iff_of_false nofun fun h => hdigit h.1.1

/-- A plus sign in front of digits is passed by. -/
theorem unsignedChars_plus {limit : Nat} {ds : List Char} (h : ds ≠ []) :
    unsignedChars limit ('+' :: ds) = digits limit .tooLarge 0 ds := by
  cases ds with
  | nil => exact absurd rfl h
  | cons d ds => rfl

/-- Digits are read from the first one on. -/
theorem unsignedChars_digit {limit : Nat} {d : Char} {ds : List Char} (h : d.isDigit = true) :
    unsignedChars limit (d :: ds) = digits limit .tooLarge 0 (d :: ds) := by
  have hplus : d ≠ '+' := by
    rintro rfl
    cases h
  rw [unsignedChars]
  · exact List.cons_ne_nil d ds
  · exact fun hcs => hplus (List.cons.inj hcs).1
  · exact fun rest hcs => hplus (List.cons.inj hcs).1

/-- **An unsigned number is read** from the texts that say it, if it is not above the limit. -/
theorem unsigned_eq_ok {limit n : Nat} {s : String} :
    unsigned limit s = .ok n ↔ Spells s n ∧ n ≤ limit := by
  have hdigits : ∀ cs, digits limit .tooLarge 0 cs = .ok n ↔
      (∀ c ∈ cs, c.isDigit = true) ∧ digitsValue cs = n ∧ n ≤ limit :=
    fun cs => digits_eq_ok (Nat.zero_le limit)
  rw [unsigned, Spells]
  constructor
  · intro h
    rw [unsignedChars.eq_def] at h
    split at h
    · cases h
    · cases h
    · rename_i rest hne hcs
      obtain ⟨hall, hvalue, hle⟩ := (hdigits _).1 h
      exact ⟨⟨rest, .inr hcs, hne, hall, hvalue⟩, hle⟩
    · rename_i hne _ _
      obtain ⟨hall, hvalue, hle⟩ := (hdigits _).1 h
      exact ⟨⟨_, .inl rfl, hne, hall, hvalue⟩, hle⟩
  · rintro ⟨⟨ds, hcs, hne, hall, hvalue⟩, hle⟩
    refine Eq.trans ?_ ((hdigits ds).2 ⟨hall, hvalue, hle⟩)
    rcases hcs with hcs | hcs
    · obtain ⟨d, rest, rfl⟩ := List.exists_cons_of_ne_nil hne
      rw [hcs, unsignedChars_digit (hall d List.mem_cons_self)]
    · rw [hcs, unsignedChars_plus hne]

/-- A word is read from the texts that say its value. -/
theorem map_unsigned_eq_ok {α : Type} {ofNat : Nat → α} {toNat : α → Nat} {size : Nat} {s : String}
    {w : α} (hsize : 0 < size) (hto : ∀ n < size, toNat (ofNat n) = n)
    (hlt : toNat w < size) (hof : ofNat (toNat w) = w) :
    (unsigned (size - 1) s).map ofNat = .ok w ↔ Spells s (toNat w) := by
  rw [map_eq_ok]
  constructor
  · rintro ⟨n, hn, rfl⟩
    obtain ⟨hspells, hle⟩ := unsigned_eq_ok.1 hn
    rwa [hto n (Nat.lt_of_le_sub_one hsize hle)]
  · intro h
    exact ⟨toNat w, unsigned_eq_ok.2 ⟨h, Nat.le_sub_one_of_lt hlt⟩, hof⟩

/-- **A 32-bit word is read** from the texts that say its value. -/
theorem word32_eq_ok {s : String} {w : UInt32} : word32 s = .ok w ↔ Spells s w.toNat :=
  map_unsigned_eq_ok (by decide) (fun _ => UInt32.toNat_ofNat_of_lt') w.toNat_lt UInt32.ofNat_toNat

/-- **A 64-bit word is read** from the texts that say its value. -/
theorem word64_eq_ok {s : String} {w : UInt64} : word64 s = .ok w ↔ Spells s w.toNat :=
  map_unsigned_eq_ok (by decide) (fun _ => UInt64.toNat_ofNat_of_lt') w.toNat_lt UInt64.ofNat_toNat

end Number

end Raster
