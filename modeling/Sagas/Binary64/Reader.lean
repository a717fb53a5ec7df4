import Sagas.Binary64.Basic

/-! Binary64 numbers from a decimal significand and an exponent of ten. -/
namespace Sagas.Binary64

/-- Divides by powers of ten up to `10 ^ 308` until the exponent is used up, rounding at each step;
a value that has become zero stays zero. -/
def divideByTens (x : Binary64) (exponent : Nat) (fuel : Nat) : Binary64 :=
  match fuel with
  | 0 => zero
  | fuel + 1 =>
    if exponent ≤ 308 then divAbs x (powerOfTen exponent)
    else if x.isZero then x
    else divideByTens (divAbs x (powerOfTen 308)) (exponent - 308) fuel

/-- The number read from `significand * 10 ^ exponent`: the significand is rounded first, then
scaled by rounded powers of ten. A value too large to be finite is refused. -/
def ofScaled (negative : Bool) (significand : Nat) (exponent : Int) : Option Binary64 :=
  let start := nearest false significand 1
  let scaled :=
    if exponent < 0 then some (divideByTens start exponent.natAbs 5)
    else if exponent ≤ 308 then some (mulAbs start (powerOfTen exponent.toNat))
    else if start.isZero then some start
    else none
  match scaled with
  | some x => if x.isFinite then some (ofMagnitudeBits negative x.bits.toNat) else none
  | none => none

end Sagas.Binary64
