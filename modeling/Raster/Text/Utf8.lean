/-
# UTF-8

Reading bytes as text. A byte sequence that is no text is reported at the first
byte that starts no character:

| fault | cause |
| --- | --- |
| `invalid n i` | the `n` bytes from index `i` begin no character |
| `incomplete i` | the bytes end inside the character that starts at `i` |

`decodeLossy` puts the replacement character `U+FFFD` where a fault is.
-/
import Raster.Bytes

namespace Raster

namespace Utf8

/-- Where and how a byte sequence stops being text. -/
inductive Fault where
  | invalid (length index : Nat)
  | incomplete (index : Nat)
  deriving DecidableEq, Repr

/-- The words for a fault. -/
def Fault.message : Fault → String
  | .invalid n i => s!"invalid utf-8 sequence of {n} bytes from index {i}"
  | .incomplete i => s!"incomplete utf-8 byte sequence from index {i}"

/-- What stands at the head of a byte sequence. -/
inductive Lead where
  | char (c : Char) (length : Nat)
  | invalid (length : Nat)
  | incomplete
  deriving DecidableEq, Repr

/-- Whether a byte continues a character. -/
def isContinuation (b : UInt8) : Bool := 0x80 ≤ b && b ≤ 0xBF

/-- The range of the second byte of a character, by its first byte. -/
def secondRange (b : UInt8) : UInt8 × UInt8 :=
  if b = 0xE0 then (0xA0, 0xBF)
  else if b = 0xED then (0x80, 0x9F)
  else if b = 0xF0 then (0x90, 0xBF)
  else if b = 0xF4 then (0x80, 0x8F)
  else (0x80, 0xBF)

/-- How many bytes the character that starts with `b` has; `0` when none starts so. -/
def width (b : UInt8) : Nat :=
  if b < 0x80 then 1
  else if b < 0xC2 then 0
  else if b < 0xE0 then 2
  else if b < 0xF0 then 3
  else if b < 0xF5 then 4
  else 0

/-- The low six bits of a continuation byte. -/
def low6 (b : UInt8) : Nat := b.toNat % 64

/-- Looks at the head of `b :: rest`. -/
def lead (b : UInt8) (rest : Bytes) : Lead :=
  match width b with
  | 0 => .invalid 1
  | 1 => .char (Char.ofNat b.toNat) 1
  | n + 2 =>
    match rest with
    | [] => .incomplete
    | b₁ :: rest =>
      let (least, greatest) := secondRange b
      if b₁ < least || greatest < b₁ then .invalid 1
      else if n = 0 then .char (Char.ofNat (b.toNat % 32 * 64 + low6 b₁)) 2
      else
        match rest with
        | [] => .incomplete
        | b₂ :: rest =>
          if !isContinuation b₂ then .invalid 2
          else if n = 1 then
            .char (Char.ofNat ((b.toNat % 16 * 64 + low6 b₁) * 64 + low6 b₂)) 3
          else
            match rest with
            | [] => .incomplete
            | b₃ :: _ =>
              if !isContinuation b₃ then .invalid 3
              else
                .char (Char.ofNat (((b.toNat % 8 * 64 + low6 b₁) * 64 + low6 b₂) * 64 + low6 b₃)) 4

/-- The first fault at or after `index`; the walk takes at most `fuel` characters. -/
def faultFrom : (fuel index : Nat) → Bytes → Option Fault
  | 0, _, _ | _, _, [] => none
  | fuel + 1, index, b :: rest =>
    match lead b rest with
    | .char _ n => faultFrom fuel (index + n) (rest.drop (n - 1))
    | .invalid n => some (.invalid n index)
    | .incomplete => some (.incomplete index)

/-- The first fault of a byte sequence. -/
def firstFault (bytes : Bytes) : Option Fault := faultFrom bytes.length 0 bytes

/-- The text of a byte sequence, or its first fault. -/
def decode (bytes : Bytes) : Except Fault String :=
  match String.fromUTF8? ⟨bytes.toArray⟩ with
  | some s => .ok s
  | none => .error ((firstFault bytes).getD (.incomplete bytes.length))

/-- Every text survives being written as bytes. -/
theorem decode_ofText (s : String) : decode (Bytes.ofText s) = .ok s := by
  have h : (⟨(Bytes.ofText s).toArray⟩ : ByteArray) = s.toUTF8 := by
    simp [Bytes.ofText]
  unfold decode
  rw [h]
  have hv : s.toUTF8.IsValidUTF8 := s.isValidUTF8
  simp only [String.fromUTF8?]
  rw [dif_pos (by simpa [ByteArray.validateUTF8_eq_true_iff] using hv)]
  rfl

/-- The characters of a byte sequence with `U+FFFD` for each fault; at most `fuel` of them. -/
def lossyChars : (fuel : Nat) → Bytes → List Char
  | 0, _ | _, [] => []
  | fuel + 1, b :: rest =>
    match lead b rest with
    | .char c n => c :: lossyChars fuel (rest.drop (n - 1))
    | .invalid n => '\uFFFD' :: lossyChars fuel (rest.drop (n - 1))
    | .incomplete => ['\uFFFD']

/-- The text of a byte sequence with `U+FFFD` for each fault. -/
def decodeLossy (bytes : Bytes) : String := String.ofList (lossyChars bytes.length bytes)

end Utf8

end Raster
