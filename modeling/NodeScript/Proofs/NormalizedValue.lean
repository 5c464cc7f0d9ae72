import NodeScript.NumberFormat
import NodeScript.Operators

/-!
# Normalized values

A value is normalized if it does not hold a NaN as a double. Rounding never makes a NaN, what is built
from a double is normalized, and with it the result of every operator but those that may hand back
their operand as it was given.
-/
namespace NodeScript

namespace Binary64

section
variable (negative : Bool) {magnitude : Nat} (bounded : magnitude ≤ infinityMagnitude)
include bounded

theorem toNat_bits_ofMagnitude : (ofMagnitude negative magnitude).bits.toNat =
    if negative then signWeight + magnitude else magnitude := by
  simp only [infinityMagnitude, exponentWeight] at bounded
  simp only [ofMagnitude, UInt64.toNat_ofNat', signWeight]
  cases negative
  · simp only [Bool.false_eq_true, if_false]
    omega
  · simp only [if_true]
    omega

theorem magnitude_ofMagnitude : (ofMagnitude negative magnitude).magnitude = magnitude := by
  rw [Binary64.magnitude, toNat_bits_ofMagnitude negative bounded]
  simp only [infinityMagnitude, exponentWeight, signWeight] at bounded ⊢
  cases negative
  · simp only [Bool.false_eq_true, if_false]
    omega
  · simp only [if_true]
    omega

theorem isNegative_ofMagnitude : (ofMagnitude negative magnitude).isNegative = negative := by
  rw [isNegative, toNat_bits_ofMagnitude negative bounded]
  simp only [infinityMagnitude, exponentWeight, signWeight] at bounded ⊢
  cases negative
  · exact decide_eq_false (by simp only [Bool.false_eq_true, if_false]; omega)
  · exact decide_eq_true (by simp only [if_true]; omega)

theorem isNaN_ofMagnitude : (ofMagnitude negative magnitude).isNaN = false := by
  rw [isNaN, magnitude_ofMagnitude negative bounded]
  exact decide_eq_false (Nat.not_lt.2 bounded)

end

/-- A number is made of its sign and its magnitude word. -/
theorem ofMagnitude_isNegative_magnitude (x : Binary64) :
    ofMagnitude x.isNegative x.magnitude = x := by
  have bound := x.bits.toNat_lt
  have word : (if x.isNegative then signWeight + x.magnitude else x.magnitude) = x.bits.toNat := by
    rw [isNegative, magnitude]
    simp only [signWeight, decide_eq_true_eq]
    split <;> omega
  rw [ofMagnitude, word, UInt64.ofNat_toNat]

/-- Rounding stops at the infinities. -/
theorem isNaN_ofRatio (negative : Bool) (numerator denominator : Nat) :
    (ofRatio negative numerator denominator).isNaN = false :=
  isNaN_ofMagnitude negative (Nat.min_le_right _ _)

theorem isNegative_ofRatio (negative : Bool) (numerator denominator : Nat) :
    (ofRatio negative numerator denominator).isNegative = negative :=
  isNegative_ofMagnitude negative (Nat.min_le_right _ _)

theorem isNaN_ofNat (n : Nat) : (ofNat n).isNaN = false := isNaN_ofRatio _ _ _

end Binary64

namespace Value

/-- The value does not hold a NaN as a double. -/
def IsNormalized : Value → Prop
  | .double number => number.isNaN = false
  | _ => True

theorem ofBinary64_of_isNaN {x : Binary64} (number : x.isNaN = false) :
    ofBinary64 x = .double x := by
  rw [ofBinary64, number]
  rfl

theorem isNormalized_ofBinary64 (number : Binary64) : (ofBinary64 number).IsNormalized := by
  rw [ofBinary64]
  split
  · trivial
  · next quiet => exact Bool.eq_false_iff.2 quiet

theorem isInt_ofBinary64 (x : Binary64) : (ofBinary64 x).isInt = false := by
  rw [ofBinary64]
  split <;> rfl

theorem isNormalized_normalized (v : Value) : v.normalized.IsNormalized := by
  cases v with
  | double number => exact isNormalized_ofBinary64 number
  | int | bool | null | undefined | nan | packetBuffer | handle => trivial

/-- Normalizing changes nothing but values that are not normalized. -/
theorem normalized_eq_self_iff {v : Value} : v.normalized = v ↔ v.IsNormalized := by
  constructor
  · intro h
    rw [← h]
    exact isNormalized_normalized v
  · intro h
    cases v with
    | double number => exact ofBinary64_of_isNaN h
    | int | bool | null | undefined | nan | packetBuffer | handle => rfl

instance : DecidablePred IsNormalized := fun _ => decidable_of_iff _ normalized_eq_self_iff

/-- Only a double that holds a NaN is not normalized, and it reads as a NaN. -/
theorem isNormalized_of_toBinary64 {v : Value} (h : v.toBinary64.isNaN = false) :
    v.IsNormalized := by
  cases v with
  | double number => exact h
  | int | bool | null | undefined | nan | packetBuffer | handle => trivial

section
variable (a b : Value)

theorem isNormalized_arithmetic (exact : Int → Int → Option Int)
    (rounded : Binary64 → Binary64 → Binary64) :
    (arithmetic exact rounded a b).IsNormalized := by
  rw [arithmetic]
  split
  · trivial
  · exact isNormalized_ofBinary64 _

theorem isNormalized_shiftRightUnsigned : (shiftRightUnsigned a b).IsNormalized := by
  simp only [shiftRightUnsigned]
  split
  · trivial
  · exact Binary64.isNaN_ofNat _

/-- The larger operand is handed back as it was given only if neither reads as a NaN. -/
theorem isNormalized_max : (max a b).IsNormalized := by
  rw [max]
  split
  · trivial
  · next numbers =>
    simp only [Bool.or_eq_true, not_or, Bool.not_eq_true] at numbers
    split
    · exact isNormalized_of_toBinary64 numbers.2
    · exact isNormalized_of_toBinary64 numbers.1

theorem isNormalized_min : (min a b).IsNormalized := by
  rw [min]
  split
  · trivial
  · next numbers =>
    simp only [Bool.or_eq_true, not_or, Bool.not_eq_true] at numbers
    split
    · exact isNormalized_of_toBinary64 numbers.1
    · exact isNormalized_of_toBinary64 numbers.2

theorem isNormalized_idiv : (idiv a b).IsNormalized := by
  rw [idiv]
  split <;> trivial

end

theorem isNormalized_neg (v : Value) : v.neg.IsNormalized := by
  cases v with
  | int x =>
    rw [neg]
    split
    · exact Binary64.isNaN_ofNat _
    · trivial
  | double | bool | null | undefined | nan | packetBuffer | handle =>
    exact isNormalized_ofBinary64 _

theorem isNormalized_roundingWith (rounding : Binary64 → Binary64) (v : Value) :
    (roundingWith rounding v).IsNormalized := by
  cases v with
  | int => trivial
  | double | bool | null | undefined | nan | packetBuffer | handle =>
    exact isNormalized_ofBinary64 _

/-- An operand that is not negative is handed back as it was given. -/
theorem isNormalized_abs {v : Value} (h : v.IsNormalized) : v.abs.IsNormalized := by
  have kept :
      (if v.toBinary64.lt (.zero false) then ofBinary64 v.toBinary64.neg else v).IsNormalized := by
    split
    · exact isNormalized_ofBinary64 _
    · exact h
  cases v with
  | int x =>
    rw [abs]
    split
    · exact Binary64.isNaN_ofNat _
    · trivial
  | double | bool | null | undefined | nan | packetBuffer | handle => exact kept

end Value

open Value

theorem BinaryOp.isNormalized_apply (operator : BinaryOp) (a b : Value) :
    (operator.apply a b).IsNormalized := by
  cases operator with
  | add | sub | mul | div => exact isNormalized_arithmetic a b _ _
  | pow => exact isNormalized_ofBinary64 _
  | shiftRightUnsigned => exact isNormalized_shiftRightUnsigned a b
  | idiv => exact isNormalized_idiv a b
  | max => exact isNormalized_max a b
  | min => exact isNormalized_min a b
  | bitAnd | bitOr | bitXor | shiftLeft | shiftRight | imul | eq | le | lt | ne => trivial

/-- All unary operators but two never hand back their operand as it was given. -/
theorem UnaryOp.isNormalized_apply {operator : UnaryOp} (notAbs : operator ≠ .abs)
    (notIdentity : operator ≠ .identity) (v : Value) : (operator.apply v).IsNormalized := by
  cases operator with
  | neg => exact isNormalized_neg v
  | ceil | floor | round => exact isNormalized_roundingWith _ v
  | logE => exact isNormalized_ofBinary64 _
  | abs => exact absurd rfl notAbs
  | identity => exact absurd rfl notIdentity
  | bitNot | isNaN | not | toBool | isNull => trivial

theorem UnaryOp.isNormalized_apply_of_operand (operator : UnaryOp) {v : Value}
    (h : v.IsNormalized) : (operator.apply v).IsNormalized := by
  by_cases isAbs : operator = .abs
  · rw [isAbs]
    exact isNormalized_abs h
  · by_cases isIdentity : operator = .identity
    · rw [isIdentity]
      exact h
    · exact isNormalized_apply isAbs isIdentity v

namespace NumberFormat

theorem isNormalized_decode (format : NumberFormat) (bytes : Bytes) :
    (format.decode bytes).IsNormalized := by
  rw [decode]
  split
  · split
    · trivial
    · exact isNormalized_ofBinary64 _
  · exact isNormalized_ofBinary64 _

/-- What is read from bytes is normalized, whatever NaN they spell. -/
theorem isNormalized_read (format : NumberFormat) (data : Bytes) (offset : Nat) :
    (format.read data offset).IsNormalized := by
  rw [read]
  split
  · exact isNormalized_decode format _
  · trivial

end NumberFormat
end NodeScript
