/-
# Cube roots

The double nearest to a cube root, found with whole numbers: `m * 2^q` is brought
to the form `n * 2^(-3t)` with an `n` of 166 to 168 bits, whose cube root, rounded
down, has 56. What was cut off is kept as one more bit, so that the last rounding
sees on which side of a tie the root lies.
-/
import Raster.Double

namespace Raster

namespace CubeRoot

/-- The cube of a number. -/
def cube (n : Nat) : Nat := n * n * n

/-- The cube root of `n < 8^bits`, rounded down: the root of the upper digits, to base eight,
gives all bits but the last. -/
def floorRoot : (bits n : Nat) → Nat
  | 0, _ => 0
  | bits + 1, n =>
    let r := 2 * floorRoot bits (n / 8)
    if cube (r + 1) ≤ n then r + 1 else r

/-- Bits of a root before its last rounding. -/
def rootBits : Nat := 56

end CubeRoot

/-- The cube root; zeros, infinities and NaNs are their own. -/
def Double.cbrt (d : Double) : Double :=
  if !d.isFinite ∨ d.significand = 0 then d
  else
    let t : Int := (167 - (d.significand.log2 : Int) - d.scale).fdiv 3
    let n := d.significand <<< (d.scale + 3 * t).toNat
    let root := CubeRoot.floorRoot CubeRoot.rootBits n
    let sticky := 2 * root + (if CubeRoot.cube root = n then 0 else 1)
    -- the root is `sticky * 2^(-t-1)`
    Double.ofRatio d.isNegative (sticky <<< (-t - 1).toNat) (1 <<< (t + 1).toNat)

end Raster
