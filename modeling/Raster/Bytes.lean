/-
# Byte strings and byte order

A byte string is a list of bytes. A number of `n` bytes is written least
significant byte first (`little`) or last (`big`):

| order | `0x1234` in two bytes |
| --- | --- |
| `little` | `34 12` |
| `big` | `12 34` |

Main statements: a number that fits comes back (`ByteOrder.decode_encode`), and
an encoding has the width asked for (`ByteOrder.length_encode`).
-/
namespace Raster

/-- A byte string. -/
abbrev Bytes := List UInt8

namespace Bytes

/-- The bytes of an ASCII or UTF-8 text. -/
def ofText (s : String) : Bytes := s.toUTF8.data.toList

/-- The `width` base-256 digits of `n`, least significant first. -/
def ofNat : (width n : Nat) → Bytes
  | 0, _ => []
  | width + 1, n => UInt8.ofNat n :: ofNat width (n / 256)

/-- The number whose base-256 digits, least significant first, are the bytes. -/
def toNat : Bytes → Nat
  | [] => 0
  | b :: rest => b.toNat + 256 * toNat rest

/-- A number has as many digits as its width says. -/
@[simp] theorem length_ofNat (width n : Nat) : (ofNat width n).length = width := by
  induction width generalizing n with
  | zero => rfl
  | succ w ih => simp [ofNat, ih]

/-- A number that its digits can say is read from them. -/
theorem toNat_ofNat {width n : Nat} (h : n < Nat.pow 256 width) : toNat (ofNat width n) = n := by
  induction width generalizing n with
  | zero =>
    have h : n < 1 := h
    simp only [ofNat, toNat]
    omega
  | succ w ih =>
    have h : n < Nat.pow 256 w * 256 := h
    have hn : n / 256 < Nat.pow 256 w := by omega
    simp only [ofNat, toNat, ih hn, UInt8.toNat_ofNat']
    omega

/-- Whether a string has at least `n` bytes; looks no further than that. -/
def holds (bytes : Bytes) (n : Nat) : Bool := n == 0 || !(bytes.drop (n - 1)).isEmpty

/-- Looking no further than needed answers as the whole length does. -/
@[simp] theorem holds_iff {bytes : Bytes} {n : Nat} : bytes.holds n = true ↔ n ≤ bytes.length := by
  simp only [holds, Bool.or_eq_true, beq_iff_eq, Bool.not_eq_true', List.isEmpty_eq_false_iff, ne_eq,
    List.drop_eq_nil_iff]
  omega

/-- The `n` bytes from `offset`, or nothing when the string ends before them. -/
def slice? (bytes : Bytes) (offset n : Nat) : Option Bytes :=
  if bytes.holds (offset + n) then some ((bytes.drop offset).take n) else none

/-- A slice as the list functions have it, for all proofs that follow. -/
theorem slice?_eq (bytes : Bytes) (offset n : Nat) :
    bytes.slice? offset n =
      if offset + n ≤ bytes.length then some ((bytes.drop offset).take n) else none := by
  simp [slice?]

/-- Cuts into whole pieces of `n` bytes; what is left over at the end is dropped. -/
def chunks (n : Nat) (bytes : Bytes) : List Bytes := go (bytes.length / n) bytes []
where
  /-- The pieces in front, given from the last one on, and the next `k` pieces. -/
  go : Nat → Bytes → List Bytes → List Bytes
    | 0, _, front => front.reverse
    | k + 1, rest, front => go k (rest.drop n) (rest.take n :: front)

/-- The pieces collected so far stand in front of those still to be cut. -/
theorem chunks_go_eq (n k : Nat) (rest : Bytes) (front : List Bytes) :
    chunks.go n k rest front =
      front.reverse ++ (List.range k).map fun i => (rest.drop (i * n)).take n := by
  induction k generalizing rest front with
  | zero => simp [chunks.go]
  | succ k ih =>
    simp [chunks.go, ih, List.range_succ_eq_map, Function.comp_def, Nat.succ_mul, Nat.add_comm]

/-- The pieces one by one: the `i`-th starts behind `i` others. -/
theorem chunks_eq (n : Nat) (bytes : Bytes) :
    bytes.chunks n = (List.range (bytes.length / n)).map fun i => (bytes.drop (i * n)).take n := by
  simp [chunks, chunks_go_eq]

/-- The byte string repeated and cut to `n` bytes; an empty one gives nothing. -/
def cycle (pattern : Bytes) (n : Nat) : Bytes :=
  ((List.replicate (n / max pattern.length 1 + 1) pattern).flatten).take n

/-- Lower-case hexadecimal text, two digits a byte. -/
def toHex (bytes : Bytes) : String :=
  String.ofList (bytes.flatMap fun b => [Nat.digitChar (b.toNat / 16), Nat.digitChar (b.toNat % 16)])

/-- The value of a hexadecimal digit. -/
def hexDigit? (c : Char) : Option Nat :=
  if c.isDigit then some (c.toNat - 48)
  else if 'a' ≤ c ∧ c ≤ 'f' then some (c.toNat - 87)
  else if 'A' ≤ c ∧ c ≤ 'F' then some (c.toNat - 55)
  else none

/-- The bytes in front, given from the last one on, and those of pairs of hexadecimal digits. -/
def ofHexChars? : (front : Bytes) → List Char → Option Bytes
  | front, [] => some front.reverse
  | front, a :: b :: rest => do
    let high ← hexDigit? a
    let low ← hexDigit? b
    ofHexChars? (UInt8.ofNat (high * 16 + low) :: front) rest
  | _, _ => none

/-- The bytes of a hexadecimal text. -/
def ofHex? (s : String) : Option Bytes := ofHexChars? [] s.toList

end Bytes

/-- Which end of a number is written first. -/
inductive ByteOrder where
  | little
  | big
  deriving DecidableEq, Repr

namespace ByteOrder

/-- The order samples have in memory. -/
def machine : ByteOrder := .little

/-- Puts bytes given least significant first into this order, and back. -/
def arrange : ByteOrder → Bytes → Bytes
  | .little, bytes => bytes
  | .big, bytes => bytes.reverse

/-- Reversing twice, or not at all, changes nothing. -/
@[simp] theorem arrange_arrange (order : ByteOrder) (bytes : Bytes) :
    order.arrange (order.arrange bytes) = bytes := by
  cases order <;> simp [arrange]

/-- The order of bytes has no say in their number. -/
@[simp] theorem length_arrange (order : ByteOrder) (bytes : Bytes) :
    (order.arrange bytes).length = bytes.length := by
  cases order <;> simp [arrange]

/-- The number `n` in `width` bytes of this order. -/
def encode (order : ByteOrder) (width n : Nat) : Bytes :=
  order.arrange (Bytes.ofNat width n)

/-- The number that the bytes, read in this order, stand for. -/
def decode (order : ByteOrder) (bytes : Bytes) : Nat :=
  Bytes.toNat (order.arrange bytes)

/-- A number takes its width in both orders. -/
@[simp] theorem length_encode (order : ByteOrder) (width n : Nat) :
    (order.encode width n).length = width := by
  simp [encode]

/-- **A number that fits its width comes back.** -/
theorem decode_encode (order : ByteOrder) {width n : Nat} (h : n < Nat.pow 256 width) :
    order.decode (order.encode width n) = n := by
  simp [decode, encode, Bytes.toNat_ofNat h]

/-- A 16-bit number in this order. -/
def put16 (order : ByteOrder) (n : UInt16) : Bytes := order.encode 2 n.toNat

/-- A 32-bit number in this order. -/
def put32 (order : ByteOrder) (n : UInt32) : Bytes := order.encode 4 n.toNat

/-- A 64-bit number in this order. -/
def put64 (order : ByteOrder) (n : UInt64) : Bytes := order.encode 8 n.toNat

/-- The 16-bit number in the bytes. -/
def get16 (order : ByteOrder) (bytes : Bytes) : UInt16 := UInt16.ofNat (order.decode bytes)

/-- The 32-bit number in the bytes. -/
def get32 (order : ByteOrder) (bytes : Bytes) : UInt32 := UInt32.ofNat (order.decode bytes)

/-- The 64-bit number in the bytes. -/
def get64 (order : ByteOrder) (bytes : Bytes) : UInt64 := UInt64.ofNat (order.decode bytes)

/-- What was written in one order is read back in it. -/
@[simp] theorem get16_put16 (order : ByteOrder) (n : UInt16) : order.get16 (order.put16 n) = n := by
  rw [get16, put16, decode_encode order (by have := n.toNat_lt; omega), UInt16.ofNat_toNat]

@[simp] theorem get32_put32 (order : ByteOrder) (n : UInt32) : order.get32 (order.put32 n) = n := by
  rw [get32, put32, decode_encode order (by have := n.toNat_lt; omega), UInt32.ofNat_toNat]

@[simp] theorem get64_put64 (order : ByteOrder) (n : UInt64) : order.get64 (order.put64 n) = n := by
  rw [get64, put64, decode_encode order (by have := n.toNat_lt; omega), UInt64.ofNat_toNat]

@[simp] theorem length_put16 (order : ByteOrder) (n : UInt16) : (order.put16 n).length = 2 := by
  simp [put16]

@[simp] theorem length_put32 (order : ByteOrder) (n : UInt32) : (order.put32 n).length = 4 := by
  simp [put32]

@[simp] theorem length_put64 (order : ByteOrder) (n : UInt64) : (order.put64 n).length = 8 := by
  simp [put64]

end ByteOrder

end Raster
