import NodeScript.Proofs.CorrectRounding

/-!
# Rounding to integers

Reading a double as a 32-bit integer drops its fraction and stops at the ends of the range. The three
roundings to an integer give a double: of a finite number the integer that they are named for, which
is never too large to be a double, with the sign of the number also where it is zero.
-/
namespace NodeScript.Binary64

theorem toInt_ofIntClamp_eq (n : Int) :
    (Int32.ofIntClamp n).toInt = max (-0x80000000) (min n 0x7FFFFFFF) := by
  have least : Int32.minValue.toInt = -0x80000000 := rfl
  have greatest : Int32.maxValue.toInt = 0x7FFFFFFF := rfl
  rw [Int32.ofIntClamp]
  split
  · split
    · rw [Int32.toInt_ofIntLE]
      omega
    · omega
  · omega

theorem tdiv_unitsPerOne (negative : Bool) (size : Nat) :
    (signed negative size).tdiv unitsPerOne = signed negative (size / unitsPerOne) := by
  cases negative
  · exact (Int.ofNat_tdiv size unitsPerOne).symm
  · exact (Int.neg_tdiv _ _).trans (congrArg Neg.neg (Int.ofNat_tdiv size unitsPerOne).symm)

/-- The fraction is dropped, what does not fit 32 bits goes to the end of the range that is nearer, and
a NaN gives zero. -/
theorem toInt32_truncates (x : Binary64) : (x.isNaN = true → x.toInt32 = 0) ∧
    (x.isNaN = false → ∃ n : Int, signed x.isNegative n.natAbs = n ∧
      n.natAbs * unitsPerOne ≤ x.units ∧ x.units < (n.natAbs + 1) * unitsPerOne ∧
      x.toInt32.toInt = max (-0x80000000) (min n 0x7FFFFFFF)) := by
  refine ⟨fun missing => ?_, fun number => ?_⟩
  · rw [toInt32, missing]
    rfl
  · have read : x.toInt32 = Int32.ofIntClamp (signed x.isNegative (x.units / unitsPerOne)) := by
      rw [toInt32, number, signedUnits_eq, tdiv_unitsPerOne]
      rfl
    refine ⟨signed x.isNegative (x.units / unitsPerOne), ?_⟩
    rw [read, toInt_ofIntClamp_eq, natAbs_signed]
    have next := Nat.lt_div_mul_add (a := x.units) unitsPerOne_pos
    rw [← Nat.add_one_mul] at next
    exact ⟨rfl, Nat.div_mul_le_self _ _, next, rfl⟩

/-- The function on doubles rounds a finite number to an integer that fits it, keeps its sign also where
that integer is zero, and leaves everything else alone. -/
structure RoundsToInteger (rounding : Binary64 → Binary64) (Fits : Int → Int → Prop) : Prop where
  unchanged (x : Binary64) (notFinite : ¬x.IsFinite) : rounding x = x
  isNegative_eq (x : Binary64) (finite : x.IsFinite) : (rounding x).isNegative = x.isNegative
  isInteger (x : Binary64) (finite : x.IsFinite) :
    ∃ n, (rounding x).IsInteger n ∧ Fits x.signedUnits n

theorem roundWith_of_not_isFinite (integer : Int → Int) {x : Binary64} (notFinite : ¬x.IsFinite) :
    roundWith integer x = x := by
  have large : infinityMagnitude ≤ x.magnitude := Nat.not_lt.1 notFinite
  have either : (x.isNaN || x.isInfinite) = true := by
    simp only [isNaN, isInfinite, Bool.or_eq_true, decide_eq_true_eq]
    omega
  rw [roundWith, if_pos either]

/-- A finite number is small, or it is an integer. -/
theorem IsFinite.small_or_isInteger {x : Binary64} (finite : x.IsFinite) :
    x.units < exponentWeight * unitsPerOne ∨
      ∃ significand doublings, significand < 2 * exponentWeight ∧ 1074 + doublings ≤ 2045 ∧
        x.units = significand <<< doublings * unitsPerOne := by
  obtain ⟨significand, doublings, form, word⟩ := exists_isLeading_word x.magnitude
  have units : x.units = significand <<< doublings := by
    rw [Binary64.units, word, form.unitsOfMagnitude_eq]
  have short := form.short
  have bounded : doublings ≤ 2045 := by
    have leading := form.leading
    rw [IsFinite, word] at finite
    simp only [exponentWeight, infinityMagnitude] at finite short leading
    omega
  by_cases coarse : 1074 ≤ doublings
  · refine .inr ⟨significand, doublings - 1074, short, by omega, ?_⟩
    rw [mul_unitsPerOne, ← Nat.shiftLeft_add, Nat.sub_add_cancel coarse, units]
  · rw [units, mul_unitsPerOne]
    exact .inl (form.shiftLeft_lt (Nat.not_le.1 coarse))

theorem natAbs_mul_unitsPerOne (n : Int) :
    (n * unitsPerOne).natAbs = n.natAbs * unitsPerOne := by
  rw [Int.natAbs_mul, Int.natAbs_natCast]

/-- An integer with a short significand is its own double, however large it is. -/
theorem isInteger_ofInt_of_short {n : Int} {significand doublings : Nat}
    (short : significand < 2 * exponentWeight) (bounded : 1074 + doublings ≤ 2045)
    (size : n.natAbs = significand <<< doublings) : (ofInt n).IsInteger n := by
  have whole : n.natAbs * unitsPerOne = significand <<< (doublings + 1074) := by
    rw [mul_unitsPerOne, size, Nat.shiftLeft_add]
  obtain ⟨finite, isNegative, units⟩ :=
    ofRatio_exact short (by omega : doublings + 1074 ≤ 2045) (n < 0) Nat.one_pos
  rw [Nat.mul_one, ← whole] at finite isNegative units
  have sign : signed (ofInt n).isNegative n.natAbs = n :=
    (congrArg (fun negative => signed negative n.natAbs) isNegative).trans (signed_natAbs n)
  exact isInteger_of_units finite units sign

section
variable {integer : Int → Int}
  (near : ∀ units, (units - integer units * unitsPerOne).natAbs < unitsPerOne)
include near

theorem integer_mul_unitsPerOne (n : Int) : integer (n * unitsPerOne) = n := by
  have close := near (n * unitsPerOne)
  rw [← Int.sub_mul, natAbs_mul_unitsPerOne] at close
  have same := Nat.lt_of_mul_lt_mul_right (Nat.lt_of_lt_of_eq close (Nat.one_mul _).symm)
  omega

theorem natAbs_integer_le {units : Int} (small : units.natAbs < exponentWeight * unitsPerOne) :
    (integer units).natAbs ≤ exponentWeight := by
  have close := near units
  have size := natAbs_mul_unitsPerOne (integer units)
  have next := Nat.succ_mul exponentWeight unitsPerOne
  exact Nat.le_of_lt_succ (Nat.lt_of_mul_lt_mul_right (a := unitsPerOne) (by omega))

theorem integer_nonneg {units : Int} (nonneg : 0 ≤ units) : 0 ≤ integer units := by
  have close := near units
  refine Int.not_lt.1 fun below => ?_
  have product : integer units * unitsPerOne ≤ -1 * unitsPerOne :=
    Int.mul_le_mul_of_nonneg_right (by omega) (Int.natCast_nonneg _)
  omega

theorem integer_nonpos {units : Int} (nonpos : units ≤ 0) : integer units ≤ 0 := by
  have close := near units
  refine Int.not_lt.1 fun above => ?_
  have product : 1 * unitsPerOne ≤ integer units * unitsPerOne :=
    Int.mul_le_mul_of_nonneg_right (by omega) (Int.natCast_nonneg _)
  omega

variable {x : Binary64} (finite : x.IsFinite)
include finite

omit near in
theorem roundWith_of_isFinite : roundWith integer x =
    if integer x.signedUnits = 0 then zero x.isNegative else ofInt (integer x.signedUnits) := by
  simp only [roundWith, finite.isNaN, finite.isInfinite, Bool.or_self, Bool.false_eq_true, if_false]

/-- An integer less than one away is never too large to be a double. -/
theorem isInteger_roundWith : (roundWith integer x).IsInteger (integer x.signedUnits) := by
  rw [roundWith_of_isFinite finite]
  split
  · next none =>
    rw [none]
    exact isInteger_zero _
  · rcases finite.small_or_isInteger with small | ⟨significand, doublings, short, bounded, units⟩
    · rw [← natAbs_signed x.isNegative x.units, ← signedUnits_eq] at small
      have size := natAbs_integer_le near small
      exact isInteger_ofInt (Nat.lt_of_le_of_lt size (by decide))
    · refine isInteger_ofInt_of_short short bounded ?_
      have factor := signed_mul x.isNegative false (significand <<< doublings) unitsPerOne
      rw [Bool.bne_false, ← units, ← signedUnits_eq] at factor
      rw [factor]
      exact (congrArg Int.natAbs (integer_mul_unitsPerOne near _)).trans (natAbs_signed _ _)

theorem isNegative_roundWith : (roundWith integer x).isNegative = x.isNegative := by
  rw [roundWith_of_isFinite finite]
  split
  · exact isNegative_ofMagnitude _ (Nat.zero_le _)
  · next nonzero =>
    have sign : (ofInt (integer x.signedUnits)).isNegative = decide (integer x.signedUnits < 0) :=
      isNegative_ofRatio _ _ _
    rw [sign]
    revert nonzero
    rw [signedUnits_eq]
    cases x.isNegative with
    | false =>
      have nonneg := integer_nonneg near (Int.natCast_nonneg x.units)
      exact fun _ => decide_eq_false (Int.not_lt.2 nonneg)
    | true =>
      have nonpos := integer_nonpos near (Int.neg_nonpos_of_nonneg (Int.natCast_nonneg x.units))
      exact fun nonzero => decide_eq_true (Int.lt_iff_le_and_ne.2 ⟨nonpos, nonzero⟩)

end

theorem roundsToInteger_roundWith {integer : Int → Int} {Fits : Int → Int → Prop}
    (fits : ∀ units, Fits units (integer units))
    (near : ∀ units, (units - integer units * unitsPerOne).natAbs < unitsPerOne) :
    RoundsToInteger (roundWith integer) Fits where
  unchanged _ := roundWith_of_not_isFinite integer
  isNegative_eq _ := isNegative_roundWith near
  isInteger x finite := ⟨_, isInteger_roundWith near finite, fits x.signedUnits⟩

theorem fdiv_bounds (units : Int) : units.fdiv unitsPerOne * unitsPerOne ≤ units ∧
    units < (units.fdiv unitsPerOne + 1) * unitsPerOne := by
  have split := Int.ediv_mul_add_emod units unitsPerOne
  have low := Int.emod_nonneg units (Int.ne_of_gt unitsPerOne_cast_pos)
  have high := Int.emod_lt_of_pos units unitsPerOne_cast_pos
  rw [Int.fdiv_eq_ediv_of_nonneg _ (Int.natCast_nonneg _), Int.add_mul, Int.one_mul]
  omega

/-- The greatest integer that is not above the number. -/
theorem roundsToInteger_floor : RoundsToInteger floor fun units n =>
    n * unitsPerOne ≤ units ∧ units < (n + 1) * unitsPerOne := by
  refine roundsToInteger_roundWith fdiv_bounds fun units => ?_
  obtain ⟨low, high⟩ := fdiv_bounds units
  rw [Int.add_mul, Int.one_mul] at high
  omega

/-- The least integer that is not below the number. -/
theorem roundsToInteger_ceil : RoundsToInteger ceil fun units n =>
    (n - 1) * unitsPerOne < units ∧ units ≤ n * unitsPerOne := by
  have bounds (units : Int) : (-((-units).fdiv unitsPerOne) - 1) * unitsPerOne < units ∧
      units ≤ -((-units).fdiv unitsPerOne) * unitsPerOne := by
    obtain ⟨low, high⟩ := fdiv_bounds (-units)
    rw [Int.add_mul, Int.one_mul] at high
    rw [Int.sub_mul, Int.one_mul, Int.neg_mul]
    omega
  refine roundsToInteger_roundWith bounds fun units => ?_
  obtain ⟨low, high⟩ := bounds units
  rw [Int.sub_mul, Int.one_mul] at low
  omega

/-- Half a unit is added before the quotient is rounded down, away from zero on both sides of it. -/
theorem halves_bounds (units : Int) :
    let n := units.sign * ((2 * units.natAbs + unitsPerOne) / (2 * unitsPerOne) : Nat)
    2 * (units - n * unitsPerOne).natAbs ≤ unitsPerOne ∧
      (2 * (units - n * unitsPerOne).natAbs = unitsPerOne →
        units.natAbs < n.natAbs * unitsPerOne) := by
  intro n
  have positive := unitsPerOne_pos
  have split := Nat.div_add_mod' (2 * units.natAbs + unitsPerOne) (2 * unitsPerOne)
  have small := Nat.mod_lt (2 * units.natAbs + unitsPerOne) (by omega : 0 < 2 * unitsPerOne)
  have double := Nat.mul_left_comm ((2 * units.natAbs + unitsPerOne) / (2 * unitsPerOne)) 2
    unitsPerOne
  have whole : n * unitsPerOne = units.sign *
      ((2 * units.natAbs + unitsPerOne) / (2 * unitsPerOne) * unitsPerOne : Nat) := by
    rw [Int.natCast_mul, ← Int.mul_assoc]
  rw [← natAbs_mul_unitsPerOne, whole]
  generalize (2 * units.natAbs + unitsPerOne) / (2 * unitsPerOne) * unitsPerOne = near at *
  rcases Int.lt_trichotomy units 0 with below | rfl | above
  · rw [Int.sign_eq_neg_one_of_neg below]
    omega
  · rw [Int.sign_zero]
    omega
  · rw [Int.sign_eq_one_of_pos above]
    omega

/-- The nearest integer, and of two that are equally near the one further from zero. -/
theorem roundsToInteger_round : RoundsToInteger round fun units n =>
    2 * (units - n * unitsPerOne).natAbs ≤ unitsPerOne ∧
      (2 * (units - n * unitsPerOne).natAbs = unitsPerOne →
        units.natAbs < n.natAbs * unitsPerOne) := by
  refine roundsToInteger_roundWith halves_bounds fun units => ?_
  have half := (halves_bounds units).1
  have positive := unitsPerOne_pos
  omega

end NodeScript.Binary64
