/-
# Packed pixels

Two codings pack a pixel into four bytes.

| coding | byte 0 | byte 1 | byte 2 | byte 3 |
| --- | --- | --- | --- | --- |
| LabQ | `L` high 8 of 10 bits | `a` high 8 of 11 | `b` high 8 of 11 | low bits `LLaaabbb` |
| Radiance | red mantissa | green | blue | shared exponent plus 128 |

In LabQ `L` is scaled by 10.23, `a` and `b` by 8, and both are signed. A Radiance
sample is `(mantissa + 1/2) * 2^(exponent - 136)`; an exponent byte of zero is
black.
-/
import Raster.Image.Point

namespace Raster

namespace Packed

/-- A rounded number as an integer within bounds; zero for a NaN. -/
def quantise (least greatest v : Float) : Int := (Sample.clamp least greatest v.round).toInt64.toInt

/-- The low byte of an integer. -/
def lowByte (n : Int) : UInt8 := UInt8.ofNat (n % 256).toNat

/-- A byte as a signed number. -/
def signedByte (b : UInt8) : Int := Int.bmod b.toNat 256

/-- Packs lightness and two colour axes. -/
def packLab (l a b : Float) : Bytes :=
  let l := quantise 0.0 1023.0 (l * 10.23)
  let a := quantise (-1024.0) 1023.0 (a * 8.0)
  let b := quantise (-1024.0) 1023.0 (b * 8.0)
  [lowByte (l / 4), lowByte (a.fdiv 8), lowByte (b.fdiv 8),
    lowByte (l % 4 * 64 + a % 8 * 8 + b % 8)]

/-- Lightness and two colour axes of a packed pixel. -/
def unpackLab (p₀ p₁ p₂ p₃ : UInt8) : List Float :=
  let l := (p₀.toNat : Int) * 4 + p₃.toNat / 64
  let a := signedByte p₁ * 8 + (p₃.toNat / 8 % 8 : Nat)
  let b := signedByte p₂ * 8 + (p₃.toNat % 8 : Nat)
  [Float.ofInt l / 10.23, Float.ofInt a / 8.0, Float.ofInt b / 8.0]

/-- `2^e`: infinite above the range, zero far below it. -/
def twoTo (e : Int32) : Float :=
  if 0 ≤ e then Float.scaleB 1.0 e.toInt else 1.0 / Float.scaleB 1.0 (-e.toInt)

/-- The red, green and blue of a packed pixel. -/
def unpackRadiance (p₀ p₁ p₂ p₃ : UInt8) : List Float :=
  if p₃ = 0 then [0.0, 0.0, 0.0]
  else
    let f := twoTo (Int32.ofInt ((p₃.toNat : Int) - 136))
    [p₀, p₁, p₂].map fun p => (Float.ofNat p.toNat + 0.5) * f

/-- Splits a positive number into a mantissa in `[1/2, 1)` and a power of two. -/
def mantissaExponent (v : Float) : Float × Int32 :=
  let e := v.log2.floor.toInt32 + 1
  let m := v / twoTo e
  if 1.0 ≤ m then (m / 2.0, e + 1)
  else if m < 0.5 then (m * 2.0, e - 1)
  else (m, e)

/-- The greater number; a NaN loses. -/
def larger (a b : Float) : Float :=
  if a.isNaN then b else if b.isNaN then a else if a < b then b else a

/-- A mantissa cut and clamped to a byte; zero for a NaN. -/
def mantissaByte (v : Float) : UInt8 := (Sample.clamp 0.0 255.0 v).toUInt8

/-- Packs red, green and blue under the exponent of the largest; too dark a pixel is black. -/
def packRadiance (r g b : Float) : Bytes :=
  let v := larger (larger r g) b
  if v ≥ 1e-32 then
    let (m, e) := mantissaExponent v
    let scale := m * 256.0 / v
    let exponent := max 0 (min 255 (e + 128).toInt)
    [mantissaByte (r * scale), mantissaByte (g * scale), mantissaByte (b * scale),
      UInt8.ofNat exponent.toNat]
  else [0, 0, 0, 0]

/-- A number as single-precision bytes. -/
def single (v : Float) : Bytes := BandFormat.float.write v

/-- Unpacks a pixel of four bytes. -/
def unpackWith (unpack : UInt8 → UInt8 → UInt8 → UInt8 → List Float) : Bytes → Option Bytes
  | p₀ :: p₁ :: p₂ :: p₃ :: _ => some ((unpack p₀ p₁ p₂ p₃).flatMap single)
  | _ => none

/-- Packs a pixel of three or more samples. -/
def packWith (f : BandFormat) (pack : Float → Float → Float → Bytes) (pixel : Bytes) :
    Option Bytes :=
  match f.readAll pixel with
  | a :: b :: c :: _ => some (pack a b c)
  | _ => none

end Packed

namespace Image

variable {ι : Type}

/-- Refuses an image of another coding. -/
def expectCoding (image : Image ι) (coding : Coding) : Except Error Unit :=
  if image.header.coding = coding then .ok ()
  else
    .error (.badOption "coding"
      s!"expected {coding.name} image, got {image.header.coding.name}")

/-- Unpacks LabQ to three bands of Lab. -/
def labqToLab (image : Image ι) : Except Error (Image ι) := do
  image.expectCoding .labq
  let shape := { image.header with
    bands := 3, format := .float, coding := .none, interpretation := .lab }
  return image.map shape (Packed.unpackWith Packed.unpackLab)

/-- Packs the first three bands of a Lab image. -/
def labToLabq (image : Image ι) : Except Error (Image ι) := do
  image.expectCoding .none
  let h := image.header
  if h.bands < 3 then throw (.badOption "coding" s!"LabQ needs 3 bands, image has {h.bands}")
  let shape := { Header.coded h.width h.height .labq with xres := h.xres, yres := h.yres }
  return image.map shape (Packed.packWith h.format Packed.packLab)

/-- Unpacks Radiance to three bands of linear light. -/
def radToFloat (image : Image ι) : Except Error (Image ι) := do
  image.expectCoding .rad
  let shape := { image.header with
    bands := 3, format := .float, coding := .none, interpretation := .scrgb }
  return image.map shape (Packed.unpackWith Packed.unpackRadiance)

/-- Packs the first three bands, as single-precision numbers, into Radiance. -/
def floatToRad (image : Image ι) : Except Error (Image ι) := do
  image.expectCoding .none
  if image.header.bands < 3 then
    throw (.badOption "coding" s!"Rad needs 3 bands, image has {image.header.bands}")
  let float := image.cast .float false
  let h := float.header
  let shape := { Header.coded h.width h.height .rad with xres := h.xres, yres := h.yres }
  return float.map shape (Packed.packWith h.format Packed.packRadiance)

/-- Removes any coding. -/
def decode (image : Image ι) : Except Error (Image ι) :=
  match image.header.coding with
  | .none => .ok image
  | .labq => image.labqToLab
  | .rad => image.radToFloat

end Image

end Raster
