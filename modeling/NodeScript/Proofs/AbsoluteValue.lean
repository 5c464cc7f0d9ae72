import NodeScript.Proofs.CorrectRounding
import NodeScript.Proofs.IntegerArithmetic

/-!
# Absolute values and signs

The absolute value of a number is worth as much as the number without its sign. A double is handed back
where it is not less than zero, and the zero with a sign is not: it is the one number that keeps its
sign, and the only one by whose absolute value a positive number divided is the negative infinity.
-/
namespace NodeScript

namespace Binary64

/-- The number with its sign bit cleared. -/
def unsigned (x : Binary64) : Binary64 := ofMagnitude false x.magnitude

theorem isNegative_zero (negative : Bool) : (zero negative).isNegative = negative :=
  isNegative_ofMagnitude negative (Nat.zero_le _)

theorem isNegative_infinity (negative : Bool) : (infinity negative).isNegative = negative :=
  isNegative_ofMagnitude negative (Nat.le_refl _)

theorem units_zero (negative : Bool) : (zero negative).units = 0 :=
  (isInteger_zero negative).units_eq

section
variable {x y : Binary64}

theorem eq_zero_of_units (none : x.units = 0) : x = zero x.isNegative :=
  eq_of_units (isNegative_zero _).symm (none.trans (units_zero _).symm)

theorem eq_unsigned (positive : x.isNegative = false) : x = x.unsigned := by
  rw [unsigned, ← positive, ofMagnitude_isNegative_magnitude]

variable (number : x.isNaN = false)
include number

theorem isNaN_neg : x.neg.isNaN = false := isNaN_ofMagnitude _ (magnitude_le_infinity number)

theorem isNaN_unsigned : x.unsigned.isNaN = false :=
  isNaN_ofMagnitude _ (magnitude_le_infinity number)

theorem isNegative_unsigned : x.unsigned.isNegative = false :=
  isNegative_ofMagnitude _ (magnitude_le_infinity number)

theorem signedUnits_unsigned : x.unsigned.signedUnits = x.signedUnits.natAbs := by
  have word : x.unsigned.units = x.units :=
    congrArg unitsOfMagnitude (magnitude_ofMagnitude false (magnitude_le_infinity number))
  rw [signedUnits_eq, signedUnits_eq, natAbs_signed, isNegative_unsigned number, word]
  rfl

theorem unsigned_neg : x.neg.unsigned = x.unsigned :=
  congrArg (ofMagnitude false) (magnitude_neg number)

theorem neg_neg : x.neg.neg = x := by
  rw [neg, magnitude_neg number, isNegative_neg number, Bool.not_not,
    ofMagnitude_isNegative_magnitude]

theorem neg_eq_zero_iff {negative : Bool} : x.neg = zero negative ↔ x = zero (!negative) := by
  have flipped (negative : Bool) : (zero negative).neg = zero (!negative) := by
    cases negative <;> decide
  constructor
  · intro same
    rw [← neg_neg number, same, flipped]
  · rintro rfl
    rw [flipped, Bool.not_not]

/-- A number is less than zero just where its sign is set, but for the zero with a sign. -/
theorem lt_zero_iff : x.lt (zero false) = true ↔ x.isNegative = true ∧ x ≠ zero true := by
  have origin : (zero false).isNaN = false ∧ (zero false).signedUnits = 0 := by decide
  simp only [lt_iff, number, origin, true_and, signedUnits_eq]
  cases sign : x.isNegative with
  | false => simp [signed]
  | true =>
    have none : x.units = 0 ↔ x = zero true :=
      ⟨fun none => sign ▸ eq_zero_of_units none, fun same => by rw [same]; decide⟩
    simp only [signed, if_true, true_and, ne_eq, ← none]
    omega

end

/-- A quotient that is a number has a sign if just one of its operands has one. -/
theorem isNegative_div {x y : Binary64} (quotient : (x.div y).isNaN = false) :
    (x.div y).isNegative = (x.isNegative != y.isNegative) := by
  have noNumber : nan.isNaN = true := by decide
  revert quotient
  simp only [div]
  split
  · simp [noNumber]
  · split
    · split
      · simp [noNumber]
      · exact fun _ => isNegative_infinity _
    · split
      · exact fun _ => isNegative_zero _
      · split
        · split
          · simp [noNumber]
          · exact fun _ => isNegative_infinity _
        · exact fun _ => isNegative_ofRatio _ _ _

/-- A positive number has no sign and is no zero. -/
theorem isNegative_of_positive {x : Binary64} (positive : 0 < x.signedUnits) :
    x.isNegative = false ∧ x.units ≠ 0 := by
  rw [signedUnits_eq] at positive
  cases sign : x.isNegative with
  | false =>
    simp only [sign, signed, Bool.false_eq_true, if_false] at positive
    exact ⟨rfl, by omega⟩
  | true =>
    simp only [sign, signed, if_true] at positive
    omega

/-- A positive number divided by a zero is the infinity with the sign of that zero. -/
theorem div_zero {x : Binary64} (number : x.isNaN = false) (positive : 0 < x.signedUnits)
    (negative : Bool) : x.div (zero negative) = infinity negative := by
  obtain ⟨sign, nonzero⟩ := isNegative_of_positive positive
  have finite := (isInteger_zero negative).finite
  have origin := units_zero negative
  simp [div, number, sign, nonzero, finite.isNaN, finite.isInfinite, origin, isNegative_zero]

end Binary64

namespace Value

/-- Integers, and doubles that hold no NaN. -/
def IsNumeric : Value → Prop
  | .int _ => True
  | .double number => number.isNaN = false
  | .bool _ | .null | .undefined | .nan | .packetBuffer | .handle _ _ => False

/-- A negative integer has a sign, and so has a double whose sign bit is set. -/
def hasSign : Value → Bool
  | .int x => x.toInt < 0
  | .double number => number.isNegative
  | .bool _ | .null | .undefined | .nan | .packetBuffer | .handle _ _ => false

theorem isNegative_toBinary64 (v : Value) : v.toBinary64.isNegative = v.hasSign := by
  cases v with
  | int | bool => exact Binary64.isNegative_ofRatio _ _ _
  | double => rfl
  | null | undefined | nan | packetBuffer | handle =>
    exact show Binary64.nan.isNegative = false by decide

theorem eq_of_ofBinary64_eq_double {x y : Binary64} (same : ofBinary64 x = .double y) : x = y := by
  rw [ofBinary64] at same
  split at same
  · cases same
  · exact double.inj same

/-! ## Integers -/

theorem worth_int (x : Int32) : (int x).worth = x.toInt * Binary64.unitsPerOne :=
  (isInteger_toBinary64 x).signedUnits_eq

theorem abs_int {x : Int32} (other : x ≠ Int32.minValue) :
    abs (.int x) = .int (Int32.ofInt x.toInt.natAbs) := by
  have size := toInt_abs_of_ne_least other
  rw [abs, if_neg other, ← size, Int32.ofInt_toInt]

theorem abs_neg_int (x : Int32) : abs (neg (.int x)) = abs (.int x) := by
  by_cases least : x = Int32.minValue
  · rw [least]
    decide +kernel
  · have negated := toInt_neg_of_ne_least least
    have other : -x ≠ Int32.minValue := by
      intro same
      have low : (-x).toInt = -0x80000000 := congrArg Int32.toInt same
      have high := x.toInt_lt
      omega
    rw [neg, if_neg least, abs_int other, abs_int least, negated, Int.natAbs_neg]

/-- The value is a number without a sign that is worth so many units. -/
structure IsUnsigned (v : Value) (units : Nat) : Prop where
  numeric : v.IsNumeric
  hasSign : v.hasSign = false
  worth : v.worth = units

/-- What stands for a natural number has no sign. -/
theorem IsPromoted.isUnsigned {v : Value} {n : Nat} (promoted : v.IsPromoted n) :
    v.IsUnsigned (n * Binary64.unitsPerOne) := by
  rcases promoted with ⟨x, rfl, size⟩ | ⟨large, d, rfl, integer⟩
  · exact ⟨trivial, decide_eq_false (by omega), by rw [worth_int, size, Int.natCast_mul]⟩
  · have positive : n ≠ 0 := by
      rintro rfl
      exact large (by decide)
    have sign : d.isNegative ≠ true := by
      intro negative
      have sign := integer.signed_natAbs
      simp only [negative, Binary64.signed, if_true] at sign
      omega
    have worth : (double d).worth = d.signedUnits := rfl
    refine ⟨integer.finite.isNaN, Bool.eq_false_iff.2 sign, ?_⟩
    rw [worth, integer.signedUnits_eq, Int.natCast_mul]

/-! ## Doubles -/

section
variable {x : Binary64} (number : x.isNaN = false)
include number

/-- All doubles but one lose their sign. -/
theorem abs_double (other : x ≠ .zero true) : abs (.double x) = .double x.unsigned := by
  have steps : abs (.double x) =
      if x.lt (.zero false) then ofBinary64 x.neg else .double x := rfl
  rw [steps]
  cases sign : x.isNegative with
  | false =>
    have notLess : ¬x.lt (.zero false) = true := fun less =>
      Bool.false_ne_true (sign.symm.trans ((Binary64.lt_zero_iff number).1 less).1)
    rw [if_neg notLess, ← Binary64.eq_unsigned sign]
  | true =>
    have flipped : x.neg = x.unsigned := by rw [Binary64.neg, sign]; rfl
    rw [if_pos ((Binary64.lt_zero_iff number).2 ⟨sign, other⟩), flipped]
    exact ofBinary64_of_isNaN (Binary64.isNaN_unsigned number)

theorem neg_double : neg (.double x) = .double x.neg :=
  ofBinary64_of_isNaN (Binary64.isNaN_neg number)

end

section
variable {v : Value} (numeric : v.IsNumeric)
include numeric

/-- A number without a sign is its own absolute value. -/
theorem abs_eq_self (positive : v.hasSign = false) : abs v = v := by
  cases v with
  | int x =>
    have notBelow : ¬x.toInt < 0 := of_decide_eq_false positive
    have other : x ≠ Int32.minValue := by
      rintro rfl
      exact notBelow (by decide)
    have size : (x.toInt.natAbs : Int) = x.toInt := by omega
    rw [abs_int other, size, Int32.ofInt_toInt]
  | double number =>
    have other : number ≠ .zero true := by
      rintro rfl
      exact Bool.false_ne_true (positive.symm.trans (Binary64.isNegative_zero true))
    rw [abs_double numeric other, ← Binary64.eq_unsigned positive]
  | bool | null | undefined | nan | packetBuffer | handle => exact numeric.elim

/-- All numbers but the zero with a sign lose their sign and nothing else. -/
theorem isUnsigned_abs (other : v ≠ .double (.zero true)) :
    (abs v).IsUnsigned v.worth.natAbs := by
  cases v with
  | int x =>
    rw [worth_int, Int.natAbs_mul, Int.natAbs_natCast]
    exact (isPromoted_abs x).isUnsigned
  | double number =>
    rw [abs_double numeric fun same => other (congrArg double same)]
    exact ⟨Binary64.isNaN_unsigned numeric, Binary64.isNegative_unsigned numeric,
      Binary64.signedUnits_unsigned numeric⟩
  | bool | null | undefined | nan | packetBuffer | handle => exact numeric.elim

end

theorem abs_negative_zero : abs (.double (.zero true)) = .double (.zero true) := by decide

section
variable {v : Value} (numeric : v.IsNumeric)
include numeric

theorem hasSign_abs_iff : (abs v).hasSign = true ↔ v = .double (.zero true) := by
  constructor
  · intro sign
    refine Decidable.byContradiction fun other => ?_
    exact Bool.false_ne_true ((isUnsigned_abs numeric other).hasSign.symm.trans sign)
  · rintro rfl
    rw [abs_negative_zero]
    exact Binary64.isNegative_zero true

theorem abs_abs : abs (abs v) = abs v := by
  by_cases zero : v = .double (.zero true)
  · rw [zero, abs_negative_zero, abs_negative_zero]
  · have unsigned := isUnsigned_abs numeric zero
    exact abs_eq_self unsigned.numeric unsigned.hasSign

/-- Negation swaps the two zeros, and both are their own absolute values. -/
theorem abs_neg_iff : abs (neg v) = abs v ↔ ∀ negative, v ≠ .double (.zero negative) := by
  constructor
  · rintro same negative rfl
    revert same
    cases negative <;> decide
  · intro nonzero
    cases v with
    | int x => exact abs_neg_int x
    | double number =>
      have other (negative : Bool) : number ≠ .zero negative := fun same =>
        nonzero negative (congrArg double same)
      have flipped : number.neg ≠ .zero true := fun same =>
        other false ((Binary64.neg_eq_zero_iff numeric).1 same)
      rw [neg_double numeric, abs_double (Binary64.isNaN_neg numeric) flipped,
        abs_double numeric (other true), Binary64.unsigned_neg numeric]
    | bool | null | undefined | nan | packetBuffer | handle => exact numeric.elim

end

/-! ## Quotients of positive numbers -/

/-- A quotient that is no integer is the quotient of the doubles. -/
theorem div_of_isInt_eq_false {a b : Value} (noInt : (div a b).isInt = false) :
    div a b = ofBinary64 (a.toBinary64.div b.toBinary64) :=
  (promotes_arithmetic exactQuotient_eq_some_iff).promoted a b noInt

section
variable {a b : Value} (number : a.IsNumber) (positive : 0 < a.worth)
include positive

theorem hasSign_of_div_eq_infinity (quotient : div a b = .double (.infinity true)) :
    b.hasSign = true := by
  have noInt : (div a b).isInt = false := by rw [quotient]; rfl
  have rounded : a.toBinary64.div b.toBinary64 = .infinity true :=
    eq_of_ofBinary64_eq_double ((div_of_isInt_eq_false noInt).symm.trans quotient)
  have sign := @Binary64.isNegative_div a.toBinary64 b.toBinary64 (by rw [rounded]; decide)
  rw [rounded, Binary64.isNegative_infinity, (Binary64.isNegative_of_positive positive).1,
    isNegative_toBinary64, Bool.false_bne] at sign
  exact sign.symm

include number

theorem div_zero (negative : Bool) :
    div a (.double (.zero negative)) = .double (.infinity negative) := by
  have noInt : (div a (.double (.zero negative))).isInt = false := by
    rw [div, arithmetic]
    cases a <;> exact isInt_ofBinary64 _
  have finite := isNaN_toBinary64_eq_false_iff.2 number
  rw [div_of_isInt_eq_false noInt]
  exact (congrArg ofBinary64 (Binary64.div_zero finite positive negative)).trans
    (ofBinary64_of_isNaN (Binary64.isNaN_ofMagnitude negative (Nat.le_refl _)))

end

/-- Absolute values have no sign, but for that of the one zero whose sign is set, which is handed back
as it was given. For an integer or a double that holds no NaN the absolute value is worth as much as the
number without its sign, and taking it again changes nothing. It has a sign just for that zero; it is
also the absolute value of the negation unless the number is a double zero; and a positive number
divided by it is the negative infinity just for the zero with a sign. -/
theorem abs_sign_exact (v : Value) (numeric : v.IsNumeric) :
    (abs v).IsNumeric ∧ (abs v).worth = v.worth.natAbs ∧
    abs (abs v) = abs v ∧
    ((abs v).hasSign = true ↔ v = .double (.zero true)) ∧
    (abs (neg v) = abs v ↔ ∀ negative, v ≠ .double (.zero negative)) ∧
    ∀ a : Value, a.IsNumber → 0 < a.worth →
      (div a (abs v) = .double (.infinity true) ↔ v = .double (.zero true)) := by
  have size : (abs v).IsNumeric ∧ (abs v).worth = v.worth.natAbs := by
    by_cases zero : v = .double (.zero true)
    · rw [zero, abs_negative_zero]
      exact ⟨rfl, by decide⟩
    · exact ⟨(isUnsigned_abs numeric zero).numeric, (isUnsigned_abs numeric zero).worth⟩
  refine ⟨size.1, size.2, abs_abs numeric, hasSign_abs_iff numeric, abs_neg_iff numeric,
    fun a number positive => ⟨fun quotient => ?_, ?_⟩⟩
  · exact (hasSign_abs_iff numeric).1 (hasSign_of_div_eq_infinity positive quotient)
  · rintro rfl
    rw [abs_negative_zero]
    exact div_zero number positive true

/-- The least integer, whose absolute value is a double. -/
theorem abs_sign_exact_least :
    let least : Value := .int Int32.minValue
    least.IsNumeric ∧ (abs least).hasSign = false ∧ abs (neg least) = abs least ∧
      div (.int 1) (abs least) ≠ .double (.infinity true) := by
  intro least
  have numeric : least.IsNumeric := trivial
  obtain ⟨-, -, -, sign, negated, quotient⟩ := abs_sign_exact least numeric
  have nonzero (negative : Bool) : least ≠ .double (.zero negative) := nofun
  have positive : 0 < (int 1).worth := by
    rw [worth_int]
    exact Int.mul_pos (by decide) Binary64.unitsPerOne_cast_pos
  refine ⟨numeric, ?_, negated.2 nonzero, fun infinite => ?_⟩
  · exact Bool.eq_false_iff.2 fun signed => nonzero true (sign.1 signed)
  · exact nonzero true ((quotient (.int 1) trivial positive).1 infinite)

/-- The absolute value of the zero with a sign has that sign, and so has the absolute value of the other
zero's negation; one divided by it is the negative infinity. -/
theorem negative_zero_keeps_sign :
    (Value.double (.zero true)).IsNumeric ∧ (Value.double (.zero false)).IsNumeric ∧
      (abs (.double (.zero true))).hasSign = true ∧
      abs (neg (.double (.zero false))) ≠ abs (.double (.zero false)) ∧
      div (.int 1) (abs (.double (.zero true))) = .double (.infinity true) := by
  exact ⟨rfl, rfl, by decide, by decide, by decide +kernel⟩

end Value
end NodeScript
