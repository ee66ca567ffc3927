/-
# ICC profiles

Whether an embedded colour profile fits an image. Only the 128-byte header of a
profile is looked at:

| offset | field |
| ---: | --- |
| 0 | size of the profile, most significant byte first |
| 16 | signature of the colour space |
| 36 | `acsp` |
-/
import Raster.Bytes
import Raster.Error
import Raster.Image.Header

namespace Raster

namespace Icc

/-- Bytes of a profile's header. -/
def headerSize : Nat := 128

/-- How many channels a profile's colour space has, if it is a known one. -/
def profileBands (profile : Bytes) : Option UInt32 :=
  match profile.slice? 16 4 with
  | none => none
  | some signature =>
    if signature = Bytes.ofText "GRAY" then some 1
    else if signature = Bytes.ofText "RGB " ∨ signature = Bytes.ofText "Lab "
        ∨ signature = Bytes.ofText "XYZ " then some 3
    else if signature = Bytes.ofText "CMYK" then some 4
    else none

/-- The bands of an image that carry colour. -/
def colourBands (h : Header) : UInt32 := h.bands - (if h.hasAlpha then 1 else 0)

/-- Refuses a profile that is malformed or describes another number of channels than the image
has, alpha not counted. -/
def checkCompatible (profile : Bytes) (h : Header) : Except Error Unit :=
  let declared := (ByteOrder.big.get32 (profile.take 4)).toNat
  if profile.length < headerSize then
    .error (.incompatibleProfile s!"{profile.length} bytes is shorter than a profile header")
  else if profile.slice? 36 4 ≠ some (Bytes.ofText "acsp") then
    .error (.incompatibleProfile "missing acsp signature")
  else if profile.length < declared then
    .error (.incompatibleProfile s!"declares {declared} bytes, has {profile.length}")
  else
    match profileBands profile with
    | some needed =>
      if needed ≠ colourBands h then
        .error (.incompatibleProfile
          s!"profile is for {needed}-channel data, image has {colourBands h}")
      else .ok ()
    | none => .ok ()

end Icc

end Raster
