import NodeScript.Binary64

/-!
# Correctly rounded binary64 arithmetic

Every operation computes an exact value and rounds it once, to the nearest number and to the even
one of two that are equally near. Conversions to and from integers are here too. Only powers and
logarithms are left to the machine.
-/
namespace NodeScript.Binary64

/-- The integer nearest to `numerator / denominator`; a half goes to the even neighbour. -/
def divideToEven (numerator denominator : Nat) : Nat :=
  let quotient := numerator / denominator
  let remainder := numerator % denominator
  if 2 * remainder < denominator then quotient
  else if denominator < 2 * remainder then quotient + 1
  else quotient + quotient % 2

/-- The number nearest to `± numerator / denominator` units of 2⁻¹⁰⁷⁴.

The quotient has `52 + excess` bits below its leading one, so `excess` of them are rounded away. The
rounded significand, its leading bit included, carries into the exponent field by plain addition, and
a word beyond the infinities' stands for an infinity. -/
def ofRatio (negative : Bool) (numerator denominator : Nat) : Binary64 :=
  let excess := (numerator / denominator).log2 - 52
  let significand := divideToEven numerator (denominator <<< excess)
  ofMagnitude negative (min (excess * exponentWeight + significand) infinityMagnitude)

/-- How many units make one. -/
def unitsPerOne : Nat := 1 <<< 1074

def ofInt (n : Int) : Binary64 := ofRatio (n < 0) (n.natAbs * unitsPerOne) 1

def ofNat (n : Nat) : Binary64 := ofRatio false (n * unitsPerOne) 1

/-- The sum of an infinity and a finite number, or of two like infinities, is that infinity. A sum
of zero is negative only if both terms are. -/
def add (x y : Binary64) : Binary64 :=
  if x.isNaN || y.isNaN then nan
  else if x.isInfinite then
    if y.isInfinite && x.isNegative != y.isNegative then nan else x
  else if y.isInfinite then y
  else
    let sum := x.signedUnits + y.signedUnits
    if sum = 0 then zero (x.isNegative && y.isNegative) else ofRatio (sum < 0) sum.natAbs 1

def sub (x y : Binary64) : Binary64 := x.add y.neg

def mul (x y : Binary64) : Binary64 :=
  let negative := x.isNegative != y.isNegative
  if x.isNaN || y.isNaN then nan
  else if x.isInfinite || y.isInfinite then
    if x.units = 0 || y.units = 0 then nan else infinity negative
  else ofRatio negative (x.units * y.units) unitsPerOne

def div (x y : Binary64) : Binary64 :=
  let negative := x.isNegative != y.isNegative
  if x.isNaN || y.isNaN then nan
  else if x.isInfinite then
    if y.isInfinite then nan else infinity negative
  else if y.isInfinite then zero negative
  else if y.units = 0 then
    if x.units = 0 then nan else infinity negative
  else ofRatio negative (x.units * unitsPerOne) y.units

/-- Replaces a finite number by an integer computed from its units; an integer zero takes the sign
of the number. -/
def roundWith (integer : Int → Int) (x : Binary64) : Binary64 :=
  if x.isNaN || x.isInfinite then x
  else
    let n := integer x.signedUnits
    if n = 0 then zero x.isNegative else ofInt n

def floor : Binary64 → Binary64 := roundWith fun units => units.fdiv unitsPerOne

def ceil : Binary64 → Binary64 := roundWith fun units => -((-units).fdiv unitsPerOne)

/-- Rounds to the nearest integer; a half goes away from zero. -/
def round : Binary64 → Binary64 := roundWith fun units =>
  units.sign * ((2 * units.natAbs + unitsPerOne) / (2 * unitsPerOne) : Nat)

/-- Drops the fraction and clamps to the 32-bit range; a NaN gives zero. -/
def toInt32 (x : Binary64) : Int32 :=
  if x.isNaN then 0 else Int32.ofIntClamp (x.signedUnits.tdiv unitsPerOne)

/-- The weight of the exponent field's lowest bit in binary32. -/
abbrev shortExponentWeight : Nat := 0x800000

/-- The number with the value of a binary32 bit pattern. Its units of 2⁻¹⁴⁹ are each 2⁹²⁵ units of
binary64; a NaN keeps no payload. -/
def ofBinary32 (word : UInt32) : Binary64 :=
  let magnitude := word.toNat % 0x80000000
  let negative : Bool := 0x80000000 ≤ word.toNat
  if 255 * shortExponentWeight < magnitude then nan
  else if magnitude = 255 * shortExponentWeight then infinity negative
  else
    let units :=
      if magnitude < shortExponentWeight then magnitude
      else (shortExponentWeight + magnitude % shortExponentWeight) <<<
        (magnitude / shortExponentWeight - 1)
    ofRatio negative (units <<< 925) 1

/-- Two to the `exponent`, made by writing the biased exponent above the fraction. Only its twelve
low bits have room there, so an exponent outside the normal range gives some other word. -/
def twoPow (exponent : Int32) : Binary64 :=
  ⟨UInt64.ofNat (((1023 + exponent.toInt) % 4096).toNat * exponentWeight)⟩

/-- Powers as the machine computes them, except that a signalling NaN always makes the result a NaN,
also where every quiet operand gives one. -/
def pow (x y : Binary64) : Binary64 :=
  if x.isSignalingNaN || y.isSignalingNaN then nan
  else ⟨((Float.ofBits x.bits).pow (Float.ofBits y.bits)).toBits⟩

/-- The natural logarithm as the machine computes it. -/
def ln (x : Binary64) : Binary64 := ⟨(Float.ofBits x.bits).log.toBits⟩

end NodeScript.Binary64
