/-! Numbers of the IEEE 754 format binary64: bits, what they denote, and rounding to them. -/
namespace Sagas

/-- A binary64 number, given by its 64 bits. -/
structure Binary64 where
  bits : UInt64
deriving DecidableEq, Inhabited

namespace Binary64

/-- The value of the highest bit, which is set for negative numbers. -/
def signBit : Nat :=
  0x8000000000000000

/-- The value of the lowest bit of the exponent. It is also what a normal number's significand has
above its fraction. -/
def exponentUnit : Nat :=
  0x10000000000000

def isNegative (x : Binary64) : Bool :=
  signBit ≤ x.bits.toNat

def biasedExponent (x : Binary64) : Nat :=
  x.bits.toNat / exponentUnit % 2048

def fraction (x : Binary64) : Nat :=
  x.bits.toNat % exponentUnit

/-- Neither an infinity nor a NaN. -/
def isFinite (x : Binary64) : Bool :=
  x.biasedExponent != 2047

def isNaN (x : Binary64) : Bool :=
  !x.isFinite && x.fraction != 0

/-- Positive or negative zero. -/
def isZero (x : Binary64) : Bool :=
  x.bits.toNat % signBit == 0

/-- The significand `m` and the exponent `q` of a finite number of absolute value `m * 2 ^ q`. -/
def magnitude (x : Binary64) : Nat × Int :=
  if x.biasedExponent = 0 then (x.fraction, -1074)
  else (exponentUnit + x.fraction, (x.biasedExponent : Int) - 1075)

/-- Equality as numbers: the zeros are equal, and a NaN differs from every number and itself. -/
def sameNumber (x y : Binary64) : Bool :=
  !x.isNaN && !y.isNaN && (x == y || (x.isZero && y.isZero))

/-- The number with the given sign and the 63 bits below it. -/
def ofMagnitudeBits (negative : Bool) (bits : Nat) : Binary64 :=
  ⟨UInt64.ofNat ((if negative then signBit else 0) + bits)⟩

def zero : Binary64 :=
  ⟨0⟩

/-! ## Rounding -/

/-- The integer nearest to a quotient, an exact half going to the even neighbour. -/
def divNearest (num den : Nat) : Nat :=
  let quotient := num / den
  let twice := 2 * (num % den)
  if twice < den then quotient
  else if den < twice then quotient + 1
  else quotient + quotient % 2

/-- The quotient `num / den` divided by `2 ^ e`, again as a quotient. -/
def shiftRatio (num den : Nat) (e : Int) : Nat × Nat :=
  if 0 ≤ e then (num, den <<< e.toNat) else (num <<< (-e).toNat, den)

/-- The number nearest to `num / den`, an exact half going to the even significand and a value
beyond the largest number to infinity. -/
def nearest (negative : Bool) (num den : Nat) : Binary64 :=
  if num = 0 then ofMagnitudeBits negative 0
  else
    let k : Int := (num.log2 : Int) - den.log2
    let wide := shiftRatio num den (k - 53)
    let e := max (if wide.1 / wide.2 < 2 * exponentUnit then k - 53 else k - 52) (-1074)
    let ratio := shiftRatio num den e
    ofMagnitudeBits negative
      (min ((e + 1074).toNat * exponentUnit + divNearest ratio.1 ratio.2) (2047 * exponentUnit))

/-- The number nearest to an integer. -/
def ofInt (n : Int) : Binary64 :=
  nearest (n < 0) n.natAbs 1

/-- The absolute value `m * 2 ^ q` as a quotient. -/
def ratioOf (m : Nat) (q : Int) : Nat × Nat :=
  if 0 ≤ q then (m <<< q.toNat, 1) else (m, 1 <<< (-q).toNat)

/-- The rounded product of the absolute values of two finite numbers. -/
def mulAbs (x y : Binary64) : Binary64 :=
  let ratio := ratioOf (x.magnitude.1 * y.magnitude.1) (x.magnitude.2 + y.magnitude.2)
  nearest false ratio.1 ratio.2

/-- The rounded quotient of the absolute values of two finite numbers, the second not zero. -/
def divAbs (x y : Binary64) : Binary64 :=
  let ratio := ratioOf x.magnitude.1 (x.magnitude.2 - y.magnitude.2)
  nearest false ratio.1 (ratio.2 * y.magnitude.1)

/-- The number nearest to `10 ^ k`. -/
def powerOfTen (k : Nat) : Binary64 :=
  nearest false (Nat.pow 10 k) 1

/-- The binary64 number with the value of a binary32 bit pattern. -/
def ofBinary32 (bits : UInt32) : Binary64 :=
  let n := bits.toNat
  let negative := 0x80000000 ≤ n
  let exponent : Nat := n / 0x800000 % 256
  let fraction := n % 0x800000
  if exponent = 255 then ofMagnitudeBits negative (2047 * exponentUnit + fraction <<< 29)
  else
    let ratio :=
      if exponent = 0 then ratioOf fraction (-149)
      else ratioOf (0x800000 + fraction) ((exponent : Int) - 150)
    nearest negative ratio.1 ratio.2

end Sagas.Binary64
