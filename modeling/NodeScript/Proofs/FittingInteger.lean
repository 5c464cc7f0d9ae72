/-!
# Integers that fit 32 bits

Negation, the absolute value and the quotient of integers of 32 bits are those of the integers, except
where the least integer gives a result that does not fit.
-/
namespace NodeScript

/-- The integers of 32 bits with a sign. -/
def FitsInt32 (n : Int) : Prop := -0x80000000 ≤ n ∧ n < 0x80000000

instance (n : Int) : Decidable (FitsInt32 n) :=
  inferInstanceAs (Decidable (-0x80000000 ≤ n ∧ n < 0x80000000))

theorem fitsInt32_toInt (x : Int32) : FitsInt32 x.toInt := ⟨x.le_toInt, x.toInt_lt⟩

theorem FitsInt32.toInt_ofInt {n : Int} (fits : FitsInt32 n) : (Int32.ofInt n).toInt = n :=
  Int32.toInt_ofInt_of_le fits.1 fits.2

section
variable {x : Int32} (other : x ≠ Int32.minValue)
include other

theorem least_lt_toInt : -0x80000000 < x.toInt := by
  have low := x.le_toInt
  have above : x.toInt ≠ -0x80000000 := fun same => other (Int32.toInt_inj.1 same)
  omega

theorem toInt_neg_of_ne_least : (-x).toInt = -x.toInt := by
  have low := least_lt_toInt other
  have high := x.toInt_lt
  rw [Int32.toInt_neg, Int.bmod_eq_of_le_mul_two (by omega) (by omega)]

theorem toInt_abs_of_ne_least : (if x < 0 then -x else x).toInt = x.toInt.natAbs := by
  split
  · next negative =>
    have below : x.toInt < 0 := Int32.lt_iff_toInt_lt.1 negative
    rw [toInt_neg_of_ne_least other]
    omega
  · next positive =>
    have notBelow : ¬x.toInt < 0 := fun below => positive (Int32.lt_iff_toInt_lt.2 below)
    omega

end

/-- The one quotient that is too large is that of the least integer and minus one. -/
theorem fitsInt32_tdiv {x y : Int32} (small : ¬(x = Int32.minValue ∧ y = -1)) :
    FitsInt32 (x.toInt.tdiv y.toInt) := by
  have low := x.le_toInt
  have high := x.toInt_lt
  have size : (x.toInt.tdiv y.toInt).natAbs = x.toInt.natAbs / y.toInt.natAbs :=
    Int.natAbs_tdiv _ _
  rw [FitsInt32]
  by_cases minus : y = -1
  · have above := least_lt_toInt fun least => small ⟨least, minus⟩
    have negated : x.toInt.tdiv y.toInt = -x.toInt := by
      rw [minus]
      exact (Int.tdiv_neg x.toInt 1).trans (congrArg Neg.neg (Int.tdiv_one x.toInt))
    omega
  · by_cases one : y.toInt = 1
    · rw [one, Int.tdiv_one]
      exact ⟨low, high⟩
    · have other : y.toInt ≠ -1 := fun same => minus (Int32.toInt_inj.1 same)
      -- A divisor of another size leaves at most half of the dividend.
      have half : x.toInt.natAbs / y.toInt.natAbs ≤ 0x40000000 := by
        by_cases zero : y.toInt.natAbs = 0
        · rw [zero, Nat.div_zero]
          omega
        · calc x.toInt.natAbs / y.toInt.natAbs ≤ x.toInt.natAbs / 2 :=
                Nat.div_le_div_left (by omega) (by omega)
            _ ≤ 0x40000000 := by omega
      omega

end NodeScript
