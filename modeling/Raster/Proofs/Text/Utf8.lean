/-
# Texts as bytes

The bytes of a text are those of its characters, one after the other. The first byte of a
character says how many there are, and with the numbers `a`, `b`, `c`, `d` of six bits or
fewer that a character is made of they are:

| bytes | first | others |
| ---: | --- | --- |
| 1 | below 128 | |
| 2 | `a + 192` | `b + 128` |
| 3 | `a + 224` | `b + 128`, `c + 128` |
| 4 | `a + 240` | `b + 128`, `c + 128`, `d + 128` |

So each character is read back where it stands (`lead_utf8EncodeChar`) and so is the whole
text (`decodeLossy_ofText`), and a byte below 128 is the character of its number
(`mem_ofText_iff`).
-/
import Mathlib.Tactic.SplitIfs
import Raster.Text.Utf8

namespace Raster

/-! ### Bytes of characters -/

/-- A text is written character by character. -/
theorem Bytes.ofText_eq_flatMap (s : String) :
    ofText s = s.toList.flatMap String.utf8EncodeChar := by
  have hencode : s.toUTF8 = (s.toList.flatMap String.utf8EncodeChar).toByteArray :=
    String.utf8Encode_toList.symm
  rw [ofText, hencode, List.data_toByteArray]

/-- Different texts have different bytes. -/
theorem Bytes.ofText_injective : Function.Injective ofText := by
  intro s t h
  have hdecoded := Utf8.decode_ofText s
  rw [h, Utf8.decode_ofText] at hdecoded
  exact (Except.ok.inj hdecoded).symm

/-- What is read as a text are the bytes of that text. -/
theorem Utf8.ofText_of_decode {bytes : Bytes} {s : String} (h : decode bytes = .ok s) :
    Bytes.ofText s = bytes := by
  rw [decode] at h
  split at h
  · rename_i found hfound
    obtain rfl := Except.ok.inj h
    rw [String.fromUTF8?] at hfound
    split at hfound
    · obtain rfl := Option.some.inj hfound
      rfl
    · cases hfound
  · cases h

/-- A byte below 128 stands for itself alone. -/
theorem Utf8.mem_utf8EncodeChar {c : Char} {b : UInt8} (hb : b.toNat < 128) :
    b ∈ String.utf8EncodeChar c ↔ c.toNat = b.toNat := by
  have hnumber : c.val.toNat = c.toNat := rfl
  have hhigh : ∀ n, 128 ≤ n → n < 256 → b ≠ UInt8.ofNat n := by
    intro n hleast hmost heq
    rw [heq, UInt8.toNat_ofNat', Nat.mod_eq_of_lt hmost] at hb
    exact Nat.not_lt.2 hleast hb
  unfold String.utf8EncodeChar
  rw [hnumber]
  dsimp only
  split_ifs with hone htwo hthree
  · rw [List.mem_singleton, ← UInt8.toNat_inj, UInt8.toNat_ofNat', Nat.mod_eq_of_lt (by omega),
      eq_comm]
  all_goals
    refine ⟨fun hmem => ?_, fun heq => absurd heq (by omega)⟩
    simp only [List.mem_cons, List.not_mem_nil, or_false] at hmem
  · rcases hmem with heq | heq <;> exact absurd heq (hhigh _ (by omega) (by omega))
  · rcases hmem with heq | heq | heq <;> exact absurd heq (hhigh _ (by omega) (by omega))
  · rcases hmem with heq | heq | heq | heq <;> exact absurd heq (hhigh _ (by omega) (by omega))

/-- **A byte below 128 is in a text where its character is.** -/
theorem Bytes.mem_ofText_iff {s : String} {b : UInt8} (hb : b.toNat < 128) :
    b ∈ ofText s ↔ Char.ofNat b.toNat ∈ s.toList := by
  have hvalid : b.toNat.isValidChar := .inl (Nat.lt_trans hb (by decide))
  have hchar : ∀ c : Char, c.toNat = b.toNat ↔ c = Char.ofNat b.toNat := by
    refine fun c => ⟨fun h => ?_, ?_⟩
    · rw [← h, Char.ofNat_toNat]
    · rintro rfl
      rw [Char.ofNat, dif_pos hvalid]
      rfl
  rw [ofText_eq_flatMap, List.mem_flatMap]
  constructor
  · rintro ⟨c, hc, hmem⟩
    rwa [← (hchar c).1 ((Utf8.mem_utf8EncodeChar hb).1 hmem)]
  · intro hc
    exact ⟨_, hc, (Utf8.mem_utf8EncodeChar hb).2 ((hchar _).2 rfl)⟩

namespace Utf8

/-! ### Read back -/

/-- A number below 256 is the value of its byte. -/
theorem toNat_ofNat_lt {n : Nat} (hn : n < 256) : (UInt8.ofNat n).toNat = n := by
  rw [UInt8.toNat_ofNat', Nat.mod_eq_of_lt hn]

/-- The width of a first byte, by its number. -/
theorem width_ofNat {n : Nat} (hn : n < 256) :
    width (UInt8.ofNat n) = if n < 128 then 1 else if n < 194 then 0 else if n < 224 then 2
      else if n < 240 then 3 else if n < 245 then 4 else 0 := by
  simp only [width, UInt8.lt_iff_toNat_lt, toNat_ofNat_lt hn, UInt8.reduceToNat]

/-- The range of a second byte, by the number of the first. -/
theorem secondRange_ofNat {n : Nat} (hn : n < 256) :
    secondRange (UInt8.ofNat n) = if n = 224 then (0xA0, 0xBF) else if n = 237 then (0x80, 0x9F)
      else if n = 240 then (0x90, 0xBF) else if n = 244 then (0x80, 0x8F) else (0x80, 0xBF) := by
  simp only [secondRange, ← UInt8.toNat_inj, toNat_ofNat_lt hn, UInt8.reduceToNat]

/-- A second byte is in its range if the character is not too long for its number, no surrogate and
not above the last one. -/
theorem second_ofNat {n b : Nat} (hn : n < 256) (hb : b < 64) (hthree : n = 224 → 32 ≤ b)
    (hsurrogate : n = 237 → b < 32) (hfour : n = 240 → 16 ≤ b) (hlast : n = 244 → b < 16) :
    (decide (UInt8.ofNat (b + 128) < (secondRange (UInt8.ofNat n)).1) ||
      decide ((secondRange (UInt8.ofNat n)).2 < UInt8.ofNat (b + 128))) = false := by
  have hnumber := toNat_ofNat_lt (n := b + 128) (by omega)
  rw [secondRange_ofNat hn, Bool.or_eq_false_iff, decide_eq_false_iff_not, decide_eq_false_iff_not,
    UInt8.lt_iff_toNat_lt, UInt8.lt_iff_toNat_lt, hnumber]
  split_ifs <;> simp only [UInt8.reduceToNat] <;> omega

/-- Six bits behind the mark make a byte that continues. -/
theorem isContinuation_ofNat {n : Nat} (hn : n < 64) :
    isContinuation (UInt8.ofNat (n + 128)) = true := by
  have hnumber := toNat_ofNat_lt (n := n + 128) (by omega)
  simp only [isContinuation, UInt8.le_iff_toNat_le, hnumber, UInt8.reduceToNat,
    Bool.and_eq_true, decide_eq_true_eq]
  omega

/-- And are read from it. -/
theorem low6_ofNat {n : Nat} (hn : n < 64) : low6 (UInt8.ofNat (n + 128)) = n := by
  rw [low6, toNat_ofNat_lt (by omega)]
  omega

/-- A byte below 128 is a character. -/
theorem lead_one {n : Nat} (hn : n < 128) (rest : Bytes) :
    lead (UInt8.ofNat n) rest = .char (Char.ofNat n) 1 := by
  have hwidth := width_ofNat (Nat.lt_trans hn (by decide))
  rw [if_pos hn] at hwidth
  rw [lead, hwidth]
  dsimp only
  rw [toNat_ofNat_lt (Nat.lt_trans hn (by decide))]

/-- Five and six bits are read as one of two bytes, unless one would do. -/
theorem lead_two {a b : Nat} (hshort : 2 ≤ a) (ha : a < 32) (hb : b < 64) (rest : Bytes) :
    lead (UInt8.ofNat (a + 192)) (UInt8.ofNat (b + 128) :: rest) =
      .char (Char.ofNat (a * 64 + b)) 2 := by
  have hwidth : width (UInt8.ofNat (a + 192)) = 0 + 2 := by
    rw [width_ofNat (by omega)]
    split_ifs <;> omega
  have hfirst : (UInt8.ofNat (a + 192)).toNat % 32 = a := by
    rw [toNat_ofNat_lt (by omega)]
    omega
  have hsecond := second_ofNat (n := a + 192) (by omega) hb (by omega) (by omega) (by omega)
    (by omega)
  rw [lead, hwidth]
  dsimp only
  rw [if_neg (Bool.eq_false_iff.1 hsecond), if_pos rfl, hfirst, low6_ofNat hb]

/-- Four and twice six as one of three, unless two would do or it is a surrogate. -/
theorem lead_three {a b c : Nat} (ha : a < 16) (hb : b < 64) (hc : c < 64)
    (hshort : a = 0 → 32 ≤ b) (hsurrogate : a = 13 → b < 32) (rest : Bytes) :
    lead (UInt8.ofNat (a + 224)) (UInt8.ofNat (b + 128) :: UInt8.ofNat (c + 128) :: rest) =
      .char (Char.ofNat ((a * 64 + b) * 64 + c)) 3 := by
  have hwidth : width (UInt8.ofNat (a + 224)) = 1 + 2 := by
    rw [width_ofNat (by omega)]
    split_ifs <;> omega
  have hfirst : (UInt8.ofNat (a + 224)).toNat % 16 = a := by
    rw [toNat_ofNat_lt (by omega)]
    omega
  have hsecond := second_ofNat (n := a + 224) (by omega) hb (by omega) (by omega) (by omega)
    (by omega)
  have hthird := isContinuation_ofNat hc
  rw [lead, hwidth]
  dsimp only
  rw [if_neg (Bool.eq_false_iff.1 hsecond), if_neg Nat.one_ne_zero, hthird,
    if_neg (by decide : ¬(!true) = true), if_pos rfl, hfirst, low6_ofNat hb, low6_ofNat hc]

/-- And three times six behind the first bits as one of four, up to the last code point. -/
theorem lead_four {a b c d : Nat} (ha : a < 5) (hb : b < 64) (hc : c < 64) (hd : d < 64)
    (hshort : a = 0 → 16 ≤ b) (hlast : a = 4 → b < 16) (rest : Bytes) :
    lead (UInt8.ofNat (a + 240))
        (UInt8.ofNat (b + 128) :: UInt8.ofNat (c + 128) :: UInt8.ofNat (d + 128) :: rest) =
      .char (Char.ofNat (((a * 64 + b) * 64 + c) * 64 + d)) 4 := by
  have hwidth : width (UInt8.ofNat (a + 240)) = 2 + 2 := by
    rw [width_ofNat (by omega)]
    split_ifs <;> omega
  have hfirst : (UInt8.ofNat (a + 240)).toNat % 8 = a := by
    rw [toNat_ofNat_lt (by omega)]
    omega
  have hsecond := second_ofNat (n := a + 240) (by omega) hb (by omega) (by omega) (by omega)
    (by omega)
  have hthird := isContinuation_ofNat hc
  have hfourth := isContinuation_ofNat hd
  rw [lead, hwidth]
  dsimp only
  rw [if_neg (Bool.eq_false_iff.1 hsecond), if_neg (by decide : ¬2 = 0), hthird, hfourth,
    if_neg (by decide : ¬(!true) = true), if_neg (by decide : ¬2 = 1),
    if_neg (by decide : ¬(!true) = true), hfirst, low6_ofNat hb, low6_ofNat hc, low6_ofNat hd]

/-- **A character is read back where it stands.** -/
theorem lead_utf8EncodeChar (c : Char) (rest : Bytes) :
    ∃ b bs, String.utf8EncodeChar c = b :: bs ∧ lead b (bs ++ rest) = .char c (bs.length + 1) := by
  have hnumber : c.val.toNat = c.toNat := rfl
  have hself := Char.ofNat_toNat c
  have hvalid : c.toNat < 0xD800 ∨ 0xDFFF < c.toNat ∧ c.toNat < 0x110000 := c.valid
  unfold String.utf8EncodeChar
  rw [hnumber]
  generalize c.toNat = n at hself hvalid ⊢
  dsimp only
  split_ifs with hone htwo hthree
  · refine ⟨_, [], rfl, ?_⟩
    rw [lead_one (by omega), hself]
    rfl
  · refine ⟨_, [_], rfl, ?_⟩
    have hparts : n / 64 % 32 * 64 + n % 64 = n := by omega
    rw [List.cons_append, lead_two (by omega) (by omega) (by omega), hparts, hself]
    rfl
  · refine ⟨_, [_, _], rfl, ?_⟩
    have hparts : (n / 4096 % 16 * 64 + n / 64 % 64) * 64 + n % 64 = n := by omega
    rw [List.cons_append, List.cons_append, lead_three (by omega) (by omega) (by omega) (by omega)
      (by omega), hparts, hself]
    rfl
  · refine ⟨_, [_, _, _], rfl, ?_⟩
    have hparts : ((n / 262144 % 8 * 64 + n / 4096 % 64) * 64 + n / 64 % 64) * 64 + n % 64 = n := by
      omega
    rw [List.cons_append, List.cons_append, List.cons_append, lead_four (by omega) (by omega)
      (by omega) (by omega) (by omega) (by omega), hparts, hself]
    rfl

/-- The walk over the bytes of some characters finds them. -/
theorem lossyChars_flatMap (cs : List Char) :
    ∀ fuel, (cs.flatMap String.utf8EncodeChar).length ≤ fuel →
      lossyChars fuel (cs.flatMap String.utf8EncodeChar) = cs := by
  induction cs with
  | nil =>
    intro fuel _
    cases fuel <;> rfl
  | cons c cs ih =>
    intro fuel hfuel
    obtain ⟨b, bs, hbytes, hlead⟩ := lead_utf8EncodeChar c (cs.flatMap String.utf8EncodeChar)
    rw [List.flatMap_cons, hbytes, List.cons_append] at hfuel ⊢
    rw [List.length_cons, List.length_append] at hfuel
    cases fuel with
    | zero => cases hfuel
    | succ fuel =>
      rw [lossyChars, hlead]
      dsimp only
      rw [Nat.add_sub_cancel, List.drop_left, ih fuel (by omega)]

/-- **A text that was written is read without a fault.** -/
theorem decodeLossy_ofText (s : String) : decodeLossy (Bytes.ofText s) = s := by
  rw [decodeLossy, Bytes.ofText_eq_flatMap, lossyChars_flatMap _ _ (Nat.le_refl _),
    String.ofList_toList]

/-- Bytes that are a text are read as that text. -/
theorem decodeLossy_of_decode {bytes : Bytes} {s : String} (h : decode bytes = .ok s) :
    decodeLossy bytes = s := by
  rw [← ofText_of_decode h, decodeLossy_ofText]

end Utf8

end Raster
