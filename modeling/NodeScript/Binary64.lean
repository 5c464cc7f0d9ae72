/-!
# Binary64 numbers

A number of the IEEE 754 binary64 format is its bit pattern, so that two NaNs or two zeros with
different bits stay different. The sign, the magnitude word and the exact value, counted in units of
2⁻¹⁰⁷⁴, are read off the bits; comparison is comparison of exact values.
-/
namespace NodeScript

structure Binary64 where
  bits : UInt64
  deriving DecidableEq, Inhabited

namespace Binary64

/-- The weight of the sign in the bits. -/
abbrev signWeight : Nat := 0x8000000000000000

/-- The weight of the exponent field's lowest bit, which is also the weight of the leading bit that
normal significands leave out. -/
abbrev exponentWeight : Nat := 0x10000000000000

/-- The 63 bits below the sign. Magnitude words are ordered as the magnitudes they stand for. -/
def magnitude (x : Binary64) : Nat := x.bits.toNat % signWeight

def isNegative (x : Binary64) : Bool := signWeight ≤ x.bits.toNat

/-- The magnitude word of the infinities; the words above it are the NaNs. -/
abbrev infinityMagnitude : Nat := 2047 * exponentWeight

def isNaN (x : Binary64) : Bool := infinityMagnitude < x.magnitude

def isInfinite (x : Binary64) : Bool := x.magnitude = infinityMagnitude

/-- A NaN whose leading fraction bit is clear. -/
def isSignalingNaN (x : Binary64) : Bool :=
  x.isNaN && decide (x.magnitude < infinityMagnitude + exponentWeight / 2)

def ofMagnitude (negative : Bool) (magnitude : Nat) : Binary64 :=
  ⟨UInt64.ofNat (if negative then signWeight + magnitude else magnitude)⟩

def zero (negative : Bool) : Binary64 := ofMagnitude negative 0

def infinity (negative : Bool) : Binary64 := ofMagnitude negative infinityMagnitude

/-- The quiet NaN with a clear sign and no payload. -/
def nan : Binary64 := ⟨0x7FF8000000000000⟩

/-- The value of a magnitude word in units of 2⁻¹⁰⁷⁴. The word of an infinity gets the value that
follows the largest finite one. -/
def unitsOfMagnitude (magnitude : Nat) : Nat :=
  if magnitude < exponentWeight then magnitude
  else (exponentWeight + magnitude % exponentWeight) <<< (magnitude / exponentWeight - 1)

def units (x : Binary64) : Nat := unitsOfMagnitude x.magnitude

def signedUnits (x : Binary64) : Int := if x.isNegative then -(x.units : Int) else x.units

def neg (x : Binary64) : Binary64 := ofMagnitude (!x.isNegative) x.magnitude

/-- Equality of values: the two zeros are equal, and a NaN equals nothing. -/
def eq (x y : Binary64) : Bool := !x.isNaN && !y.isNaN && x.signedUnits == y.signedUnits

/-- A NaN differs from everything. -/
def ne (x y : Binary64) : Bool := x.isNaN || y.isNaN || x.signedUnits != y.signedUnits

def lt (x y : Binary64) : Bool := !x.isNaN && !y.isNaN && decide (x.signedUnits < y.signedUnits)

def le (x y : Binary64) : Bool := !x.isNaN && !y.isNaN && decide (x.signedUnits ≤ y.signedUnits)

end Binary64
end NodeScript
