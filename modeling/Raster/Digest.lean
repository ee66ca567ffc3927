/-
# SHA-256

The message is padded with a one bit, zeros and its length in bits to blocks of
64 bytes. Each block is expanded to 64 words, which are mixed one by one into
eight working words; what comes out is added to the state.

| step | words |
| --- | --- |
| `schedule` | 16 of the block, then 48 made from four earlier ones each |
| `round` | one scheduled word and one constant mixed into the state |
| `compress` | 64 rounds, then the old state added |
-/
import Raster.Bytes

namespace Raster

namespace Sha256

/-- The eight words of the state. -/
structure State where
  a : UInt32
  b : UInt32
  c : UInt32
  d : UInt32
  e : UInt32
  f : UInt32
  g : UInt32
  h : UInt32

/-- The fractional parts of the square roots of the first eight primes. -/
def start : State :=
  ⟨0x6a09e667, 0xbb67ae85, 0x3c6ef372, 0xa54ff53a, 0x510e527f, 0x9b05688c, 0x1f83d9ab, 0x5be0cd19⟩

/-- The fractional parts of the cube roots of the first 64 primes. -/
def constants : List UInt32 := [
  0x428a2f98, 0x71374491, 0xb5c0fbcf, 0xe9b5dba5, 0x3956c25b, 0x59f111f1, 0x923f82a4, 0xab1c5ed5,
  0xd807aa98, 0x12835b01, 0x243185be, 0x550c7dc3, 0x72be5d74, 0x80deb1fe, 0x9bdc06a7, 0xc19bf174,
  0xe49b69c1, 0xefbe4786, 0x0fc19dc6, 0x240ca1cc, 0x2de92c6f, 0x4a7484aa, 0x5cb0a9dc, 0x76f988da,
  0x983e5152, 0xa831c66d, 0xb00327c8, 0xbf597fc7, 0xc6e00bf3, 0xd5a79147, 0x06ca6351, 0x14292967,
  0x27b70a85, 0x2e1b2138, 0x4d2c6dfc, 0x53380d13, 0x650a7354, 0x766a0abb, 0x81c2c92e, 0x92722c85,
  0xa2bfe8a1, 0xa81a664b, 0xc24b8b70, 0xc76c51a3, 0xd192e819, 0xd6990624, 0xf40e3585, 0x106aa070,
  0x19a4c116, 0x1e376c08, 0x2748774c, 0x34b0bcb5, 0x391c0cb3, 0x4ed8aa4a, 0x5b9cca4f, 0x682e6ff3,
  0x748f82ee, 0x78a5636f, 0x84c87814, 0x8cc70208, 0x90befffa, 0xa4506ceb, 0xbef9a3f7, 0xc67178f2]

/-- A word turned right. -/
def turn (x n : UInt32) : UInt32 := (x >>> n) ||| (x <<< (32 - n))

/-- Appends `n` words to a schedule that is kept latest first. -/
def extendSchedule : (n : Nat) → List UInt32 → List UInt32
  | 0, words => words
  | n + 1, words =>
    let w (i : Nat) := words[i]?.getD 0
    let s₀ := turn (w 14) 7 ^^^ turn (w 14) 18 ^^^ (w 14 >>> 3)
    let s₁ := turn (w 1) 17 ^^^ turn (w 1) 19 ^^^ (w 1 >>> 10)
    extendSchedule n ((w 15 + s₀ + w 6 + s₁) :: words)

/-- The 64 words of a block. -/
def schedule (block : Bytes) : List UInt32 :=
  (extendSchedule 48 ((block.chunks 4).map ByteOrder.big.get32).reverse).reverse

/-- Mixes one scheduled word and its constant into the state. -/
def round (s : State) (word : UInt32 × UInt32) : State :=
  let s₁ := turn s.e 6 ^^^ turn s.e 11 ^^^ turn s.e 25
  let choice := (s.e &&& s.f) ^^^ (~~~s.e &&& s.g)
  let t₁ := s.h + s₁ + choice + word.1 + word.2
  let s₀ := turn s.a 2 ^^^ turn s.a 13 ^^^ turn s.a 22
  let majority := (s.a &&& s.b) ^^^ (s.a &&& s.c) ^^^ (s.b &&& s.c)
  ⟨t₁ + (s₀ + majority), s.a, s.b, s.c, s.d + t₁, s.e, s.f, s.g⟩

/-- Mixes a block into the state. -/
def compress (s : State) (block : Bytes) : State :=
  let t := (constants.zip (schedule block)).foldl round s
  ⟨s.a + t.a, s.b + t.b, s.c + t.c, s.d + t.d, s.e + t.e, s.f + t.f, s.g + t.g, s.h + t.h⟩

/-- A message filled up to whole blocks. -/
def padded (message : Bytes) : Bytes :=
  message ++ 0x80 :: List.replicate ((119 - message.length % 64) % 64) 0
    ++ ByteOrder.big.encode 8 (8 * message.length)

end Sha256

/-- The SHA-256 digest of a message. -/
def sha256 (message : Bytes) : Bytes :=
  let s := ((Sha256.padded message).chunks 64).foldl Sha256.compress Sha256.start
  [s.a, s.b, s.c, s.d, s.e, s.f, s.g, s.h].flatMap ByteOrder.big.put32

end Raster
