import Mathlib.Data.Nat.Dist
import Mathlib.Order.Monotone.Basic
import NodeScript.Proofs.IntegerDoubles

/-!
# Correct rounding

Magnitude words are ordered as their values. Rounding a ratio gives the number nearest to it, where an
infinity counts as the value behind the greatest finite number, and of two that are equally near the
one whose last bit is zero; there is no other such number. So every operation on finite numbers gives
the exact result, rounded once. A number of 32 bits has no need to be rounded: its double has its value.
-/
namespace NodeScript.Binary64

/-! ## The order of words -/

/-- A significand that carries into the exponent is worth as much as before. -/
theorem unitsOfMagnitude_eq_shiftLeft {significand doublings : Nat}
    (short : significand ≤ 2 * exponentWeight)
    (leading : exponentWeight ≤ significand ∨ doublings = 0) :
    unitsOfMagnitude (doublings * exponentWeight + significand) = significand <<< doublings := by
  rcases Nat.lt_or_eq_of_le short with short | rfl
  · exact IsLeading.unitsOfMagnitude_eq ⟨short, leading⟩
  · have carried : IsLeading exponentWeight (doublings + 1) := ⟨by decide, .inl (Nat.le_refl _)⟩
    have word : doublings * exponentWeight + 2 * exponentWeight =
        (doublings + 1) * exponentWeight + exponentWeight := by
      rw [Nat.add_one_mul doublings, Nat.two_mul, Nat.add_assoc]
    rw [word, carried.unitsOfMagnitude_eq, two_mul_shiftLeft]

theorem exists_isLeading_word (word : Nat) : ∃ significand doublings,
    IsLeading significand doublings ∧ word = doublings * exponentWeight + significand := by
  by_cases low : word < exponentWeight
  · exact ⟨word, 0, ⟨Nat.lt_of_lt_of_le low (by decide), .inr rfl⟩, by omega⟩
  · refine ⟨exponentWeight + word % exponentWeight, word / exponentWeight - 1, ⟨?_, ?_⟩, ?_⟩
    all_goals
      simp only [exponentWeight] at low ⊢
      omega

theorem shiftLeft_lt_shiftLeft_iff {m n count : Nat} : m <<< count < n <<< count ↔ m < n := by
  rw [Nat.shiftLeft_eq, Nat.shiftLeft_eq]
  exact Nat.mul_lt_mul_right (Nat.two_pow_pos count)

theorem shiftLeft_le_shiftLeft {n few many : Nat} (le : few ≤ many) : n <<< few ≤ n <<< many := by
  rw [Nat.shiftLeft_eq, Nat.shiftLeft_eq]
  exact Nat.mul_le_mul_left n (Nat.pow_le_pow_right Nat.two_pos le)

/-- With fewer doublings a value stays below the least one that has all its bits. -/
theorem IsLeading.shiftLeft_lt {significand doublings count : Nat}
    (form : IsLeading significand doublings) (fewer : doublings < count) :
    significand <<< doublings < exponentWeight <<< count :=
  calc significand <<< doublings
    _ < (2 * exponentWeight) <<< doublings := shiftLeft_lt_shiftLeft_iff.2 form.short
    _ = exponentWeight <<< (doublings + 1) := two_mul_shiftLeft _ _
    _ ≤ exponentWeight <<< count := shiftLeft_le_shiftLeft fewer

/-- Magnitude words are ordered as the values that they stand for. -/
theorem strictMono_unitsOfMagnitude : StrictMono unitsOfMagnitude := by
  refine strictMono_nat_of_lt_succ fun word => ?_
  obtain ⟨significand, doublings, form, rfl⟩ := exists_isLeading_word word
  have next := unitsOfMagnitude_eq_shiftLeft (Nat.succ_le_of_lt form.short)
    (form.leading.imp_left Nat.le_succ_of_le)
  rw [form.unitsOfMagnitude_eq, Nat.add_assoc, next, shiftLeft_lt_shiftLeft_iff]
  exact Nat.lt_succ_self significand

/-! ## The nearest multiple -/

theorem divideToEven_bounds (numerator denominator : Nat) :
    numerator / denominator ≤ divideToEven numerator denominator ∧
      divideToEven numerator denominator ≤ numerator / denominator + 1 := by
  simp only [divideToEven]
  split
  · omega
  · split <;> omega

/-- Different multiples lie at least the denominator apart. -/
theorem le_dist_mul {m n : Nat} (other : n ≠ m) (denominator : Nat) :
    denominator ≤ (m * denominator).dist (n * denominator) := by
  rw [Nat.dist_mul_right]
  exact Nat.le_mul_of_pos_left denominator (Nat.dist_pos_of_ne other.symm)

section
variable {numerator denominator : Nat} (positive : 0 < denominator)
include positive

/-- The multiple is no further away than half the denominator, and even if it is that far away. -/
theorem divideToEven_half :
    2 * numerator.dist (divideToEven numerator denominator * denominator) ≤ denominator ∧
      (2 * numerator.dist (divideToEven numerator denominator * denominator) = denominator →
        divideToEven numerator denominator % 2 = 0) := by
  have split := Nat.div_add_mod' numerator denominator
  have small := Nat.mod_lt numerator positive
  have next := Nat.add_one_mul (numerator / denominator) denominator
  simp only [divideToEven, Nat.dist]
  split
  · omega
  · split
    · omega
    · have even : (numerator / denominator + numerator / denominator % 2) % 2 = 0 := by omega
      rcases Nat.mod_two_eq_zero_or_one (numerator / denominator) with down | up
      · rw [down, Nat.add_zero] at even ⊢
        exact ⟨by omega, fun _ => even⟩
      · rw [up] at even ⊢
        exact ⟨by omega, fun _ => even⟩

/-- No multiple lies nearer to the numerator, and of two that lie equally near it is the even one. -/
theorem divideToEven_nearest (n : Nat) :
    numerator.dist (divideToEven numerator denominator * denominator) ≤
        numerator.dist (n * denominator) ∧
      (n ≠ divideToEven numerator denominator →
        numerator.dist (divideToEven numerator denominator * denominator) =
          numerator.dist (n * denominator) → divideToEven numerator denominator % 2 = 0) := by
  obtain ⟨half, even⟩ := @divideToEven_half numerator denominator positive
  by_cases same : n = divideToEven numerator denominator
  · rw [same]
    exact ⟨Nat.le_refl _, fun other => absurd rfl other⟩
  · have apart := le_dist_mul same denominator
    have through := Nat.dist.triangle_inequality
      (divideToEven numerator denominator * denominator) numerator (n * denominator)
    rw [Nat.dist_comm _ numerator] at through
    exact ⟨by omega, fun _ tie => even (by omega)⟩

end

/-! ## The nearest word -/

/-- The word that rounding a ratio makes before it stops at the infinities. -/
def ratioWord (numerator denominator : Nat) : Nat :=
  let excess := (numerator / denominator).log2 - 52
  excess * exponentWeight + divideToEven numerator (denominator <<< excess)

/-- A number without its excess bits has 53 bits, or fewer where there are none in excess. -/
theorem div_excess (n : Nat) : n / 1 <<< (n.log2 - 52) < 2 * exponentWeight ∧
    (exponentWeight ≤ n / 1 <<< (n.log2 - 52) ∨ n.log2 - 52 = 0) := by
  have units : 2 * exponentWeight = 1 <<< 53 ∧ exponentWeight = 1 <<< 52 := ⟨rfl, rfl⟩
  rw [Nat.div_lt_iff_lt_mul (shiftLeft_pos Nat.one_pos _),
    Nat.le_div_iff_mul_le (shiftLeft_pos Nat.one_pos _), units.1, units.2]
  simp only [Nat.one_shiftLeft, ← Nat.pow_add]
  refine ⟨?_, ?_⟩
  · exact Nat.lt_of_lt_of_le Nat.lt_log2_self (Nat.pow_le_pow_right Nat.two_pos (by omega))
  · by_cases short : n.log2 - 52 = 0
    · exact .inr short
    · have nonzero : n ≠ 0 := by
        rintro rfl
        exact short rfl
      have bits : 52 + (n.log2 - 52) = n.log2 := by omega
      rw [bits]
      exact .inl (Nat.log2_self_le nonzero)

section
variable {numerator denominator : Nat}

theorem div_shiftLeft (count : Nat) :
    numerator / denominator <<< count = numerator / denominator / 1 <<< count := by
  rw [Nat.shiftLeft_eq, Nat.one_shiftLeft, Nat.div_div_eq_div_mul]

theorem unitsOfMagnitude_ratioWord : unitsOfMagnitude (ratioWord numerator denominator) =
    divideToEven numerator (denominator <<< ((numerator / denominator).log2 - 52)) <<<
      ((numerator / denominator).log2 - 52) := by
  obtain ⟨short, leading⟩ := div_excess (numerator / denominator)
  rw [← div_shiftLeft] at short leading
  obtain ⟨low, high⟩ := divideToEven_bounds numerator
    (denominator <<< ((numerator / denominator).log2 - 52))
  exact unitsOfMagnitude_eq_shiftLeft (by omega) (leading.imp_left low.trans')

/-- No word stands for a value nearer to the ratio, and of two that stand for values equally near it is
the even one. -/
theorem ratioWord_nearest (positive : 0 < denominator) (word : Nat) :
    numerator.dist (unitsOfMagnitude (ratioWord numerator denominator) * denominator) ≤
        numerator.dist (unitsOfMagnitude word * denominator) ∧
      (word ≠ ratioWord numerator denominator →
        numerator.dist (unitsOfMagnitude (ratioWord numerator denominator) * denominator) =
          numerator.dist (unitsOfMagnitude word * denominator) →
        ratioWord numerator denominator % 2 = 0) := by
  have value := @unitsOfMagnitude_ratioWord numerator denominator
  have leading := (div_excess (numerator / denominator)).2
  rw [← div_shiftLeft] at leading
  have made : ratioWord numerator denominator = ((numerator / denominator).log2 - 52) *
      exponentWeight + divideToEven numerator
        (denominator <<< ((numerator / denominator).log2 - 52)) := rfl
  generalize (numerator / denominator).log2 - 52 = excess at value leading made
  have unit := shiftLeft_pos positive excess
  obtain ⟨significand, doublings, form, rfl⟩ := exists_isLeading_word word
  rw [value, form.unitsOfMagnitude_eq, shiftLeft_mul]
  by_cases fine : excess ≤ doublings
  · -- The value is a multiple of the unit that the ratio is rounded to.
    have multiple : significand <<< doublings =
        significand <<< (doublings - excess) <<< excess := by
      rw [← Nat.shiftLeft_add, Nat.sub_add_cancel fine]
    rw [multiple, shiftLeft_mul]
    obtain ⟨nearest, even⟩ := @divideToEven_nearest numerator _ unit
      (significand <<< (doublings - excess))
    refine ⟨nearest, fun other tie => ?_⟩
    have apart : significand <<< (doublings - excess) ≠
        divideToEven numerator (denominator <<< excess) := by
      intro same
      refine other (strictMono_unitsOfMagnitude.injective ?_)
      rw [value, form.unitsOfMagnitude_eq, multiple, same]
    have half := even apart tie
    rw [made]
    simp only [exponentWeight]
    omega
  · -- The value is below the least one with as many bits as the ratio.
    have normal := leading.resolve_right (by omega)
    rw [Nat.le_div_iff_mul_le unit] at normal
    have below := form.shiftLeft_lt (Nat.not_le.1 fine)
    have less := Nat.mul_lt_mul_of_pos_right below positive
    rw [shiftLeft_mul exponentWeight] at less
    have nearest := (@divideToEven_nearest numerator _ unit exponentWeight).1
    unfold Nat.dist at nearest ⊢
    omega

end

/-! ## The nearest number -/

theorem units_lt_iff {x y : Binary64} : x.units < y.units ↔ x.magnitude < y.magnitude :=
  strictMono_unitsOfMagnitude.lt_iff_lt

/-- A number is made of its sign and its value. -/
theorem eq_of_units {x y : Binary64} (sign : x.isNegative = y.isNegative)
    (units : x.units = y.units) : x = y := by
  have word : x.magnitude = y.magnitude := strictMono_unitsOfMagnitude.injective units
  rw [← ofMagnitude_isNegative_magnitude x, sign, word, ofMagnitude_isNegative_magnitude]

/-- The number is what `± numerator / denominator` units are rounded to: no number lies nearer, where an
infinity has the value that follows the greatest finite one, and of two that lie equally near it is the
one whose last bit is zero. -/
structure Rounds (x : Binary64) (negative : Bool) (numerator denominator : Nat) : Prop where
  isNaN_eq : x.isNaN = false
  isNegative_eq : x.isNegative = negative
  nearest (y : Binary64) (number : y.isNaN = false) :
    numerator.dist (x.units * denominator) ≤ numerator.dist (y.units * denominator)
  even (y : Binary64) (number : y.isNaN = false) (other : y.magnitude ≠ x.magnitude)
    (tie : numerator.dist (x.units * denominator) = numerator.dist (y.units * denominator)) :
    x.magnitude % 2 = 0

section
variable {negative : Bool} {numerator denominator : Nat} (positive : 0 < denominator)
include positive

/-- A ratio whose word would be beyond the infinities is greater than the value of their word. -/
theorem infinity_mul_lt (beyond : infinityMagnitude < ratioWord numerator denominator) :
    unitsOfMagnitude infinityMagnitude * denominator < numerator := by
  have less := Nat.mul_lt_mul_of_pos_right (strictMono_unitsOfMagnitude beyond) positive
  have nearest := (@ratioWord_nearest numerator denominator positive infinityMagnitude).1
  unfold Nat.dist at nearest
  omega

/-- A ratio is rounded to the number that it should be. -/
theorem rounds_ofRatio :
    (ofRatio negative numerator denominator).Rounds negative numerator denominator := by
  have made : ofRatio negative numerator denominator =
      ofMagnitude negative (min (ratioWord numerator denominator) infinityMagnitude) := rfl
  have nearest := @ratioWord_nearest numerator denominator positive
  rcases Nat.lt_or_ge infinityMagnitude (ratioWord numerator denominator) with beyond | bounded
  · rw [made, Nat.min_eq_right (Nat.le_of_lt beyond)]
    have word : (ofMagnitude negative infinityMagnitude).magnitude = infinityMagnitude :=
      magnitude_ofMagnitude negative (Nat.le_refl _)
    refine ⟨isNaN_ofMagnitude negative (Nat.le_refl _),
      isNegative_ofMagnitude negative (Nat.le_refl _), fun y number => ?_, fun _ _ _ _ => ?_⟩
    · have below : y.units ≤ unitsOfMagnitude infinityMagnitude :=
        strictMono_unitsOfMagnitude.monotone (magnitude_le_infinity number)
      have less := infinity_mul_lt positive beyond
      have atMost := Nat.mul_le_mul_right denominator below
      rw [units, word]
      unfold Nat.dist
      omega
    · rw [word]
      decide
  · rw [made, Nat.min_eq_left bounded]
    have word := magnitude_ofMagnitude negative bounded
    refine ⟨isNaN_ofMagnitude negative bounded, isNegative_ofMagnitude negative bounded, ?_, ?_⟩
    all_goals
      intro y number
      rw [units, units, word]
    · exact (nearest y.magnitude).1
    · exact (nearest y.magnitude).2

section
variable {x y : Binary64} (first : x.Rounds negative numerator denominator)
  (second : y.Rounds negative numerator denominator)
include first second

theorem Rounds.not_lt : ¬x.magnitude < y.magnitude := by
  intro less
  have tie := Nat.le_antisymm (first.nearest y second.isNaN_eq) (second.nearest x first.isNaN_eq)
  have evenX := first.even y second.isNaN_eq (Nat.ne_of_gt less) tie
  have evenY := second.even x first.isNaN_eq (Nat.ne_of_lt less) tie.symm
  -- Both words are even, so that there is one between them, which lies nearer than both.
  have bounded : x.magnitude + 1 ≤ infinityMagnitude :=
    Nat.le_trans less (magnitude_le_infinity second.isNaN_eq)
  have word := magnitude_ofMagnitude false bounded
  have between := first.nearest _ (isNaN_ofMagnitude false bounded)
  have lower : x.units < (ofMagnitude false (x.magnitude + 1)).units :=
    units_lt_iff.2 (by omega)
  have upper : (ofMagnitude false (x.magnitude + 1)).units < y.units :=
    units_lt_iff.2 (by omega)
  have low := Nat.mul_lt_mul_of_pos_right lower positive
  have high := Nat.mul_lt_mul_of_pos_right upper positive
  unfold Nat.dist at tie between
  omega

/-- No other number is what the ratio is rounded to. -/
theorem Rounds.unique : x = y := by
  have notLess := Rounds.not_lt positive first second
  have notGreater := Rounds.not_lt positive second first
  have word : x.magnitude = y.magnitude := by omega
  exact eq_of_units (first.isNegative_eq.trans second.isNegative_eq.symm)
    (congrArg unitsOfMagnitude word)

end
end

/-! ## Operations -/

/-- The number nearest to an integer. -/
def RoundsInt (x : Binary64) (n : Int) : Prop := x.Rounds (n < 0) (n.natAbs * unitsPerOne) 1

theorem roundsInt_ofInt (n : Int) : (ofInt n).RoundsInt n := rounds_ofRatio Nat.one_pos

section
variable {x y : Binary64} (left : x.IsFinite) (right : y.IsFinite)
include left right

/-- A sum of finite numbers is the exact sum, rounded once; one that is zero has a sign only if both
terms have. -/
theorem add_rounds : if x.signedUnits + y.signedUnits = 0 then
      x.add y = zero (x.isNegative && y.isNegative)
    else (x.add y).Rounds (x.signedUnits + y.signedUnits < 0)
      (x.signedUnits + y.signedUnits).natAbs 1 := by
  simp only [add, left.isNaN, right.isNaN, left.isInfinite, right.isInfinite, Bool.or_self,
    Bool.false_eq_true, if_false]
  split
  · rfl
  · exact rounds_ofRatio Nat.one_pos

theorem mul_rounds : (x.mul y).Rounds (x.isNegative != y.isNegative) (x.units * y.units)
    unitsPerOne := by
  simp only [mul, left.isNaN, right.isNaN, left.isInfinite, right.isInfinite, Bool.or_self,
    Bool.false_eq_true, if_false]
  exact rounds_ofRatio unitsPerOne_pos

theorem div_rounds (divisor : y.units ≠ 0) : (x.div y).Rounds (x.isNegative != y.isNegative)
    (x.units * unitsPerOne) y.units := by
  simp only [div, left.isNaN, right.isNaN, left.isInfinite, right.isInfinite, Bool.or_self,
    Bool.false_eq_true, if_false, divisor]
  exact rounds_ofRatio (Nat.pos_of_ne_zero divisor)

end

/-! ## Numbers of 32 bits -/

/-- Both doubles are the same, or neither of them is a number. -/
def SameNumber (x y : Binary64) : Prop := x = y ∨ x.isNaN = true ∧ y.isNaN = true

theorem SameNumber.ofBinary64_eq {x y : Binary64} (same : x.SameNumber y) :
    Value.ofBinary64 x = Value.ofBinary64 y := by
  rcases same with rfl | ⟨left, right⟩
  · rfl
  · rw [Value.ofBinary64, Value.ofBinary64, left, right]
    rfl

theorem SameNumber.mul {x y : Binary64} (same : x.SameNumber y) (z : Binary64) :
    (x.mul z).SameNumber (y.mul z) := by
  rcases same with rfl | ⟨left, right⟩
  · exact .inl rfl
  · left
    simp only [Binary64.mul, left, right, Bool.true_or, if_true]

/-- The pattern of a binary32 number with these fields. -/
def shortPattern (negative : Bool) (exponent fraction : Nat) : Nat :=
  (if negative then 0x80000000 else 0) + exponent * shortExponentWeight + fraction

/-- The double has the value of the binary32 number with these fields. Its exponent field is zero
where the significand has no leading bit, and 255 for the infinities and the NaNs; the units of 2⁻¹⁴⁹
that everything else counts are 2⁹²⁵ units of a double. -/
inductive IsShort (x : Binary64) (negative : Bool) : (exponent fraction : Nat) → Prop where
  | subnormal {fraction : Nat} (finite : x.IsFinite) (sign : x.isNegative = negative)
      (units : x.units = fraction <<< 925) : IsShort x negative 0 fraction
  | normal {exponent fraction : Nat} (positive : 0 < exponent) (small : exponent < 255)
      (finite : x.IsFinite) (sign : x.isNegative = negative)
      (units : x.units = (0x800000 + fraction) <<< (exponent - 1) <<< 925) :
      IsShort x negative exponent fraction
  | infinity (infinite : x.isInfinite = true) (sign : x.isNegative = negative) :
      IsShort x negative 255 0
  | nan {fraction : Nat} (nonzero : fraction ≠ 0) (missing : x.isNaN = true) :
      IsShort x negative 255 fraction

/-- The fields say which number it is. -/
theorem IsShort.unique {x y : Binary64} {negative : Bool} {exponent fraction : Nat}
    (first : x.IsShort negative exponent fraction) (second : y.IsShort negative exponent fraction) :
    x.SameNumber y := by
  cases first with
  | subnormal finite sign units =>
    cases second with
    | subnormal finite' sign' units' =>
      exact .inl (eq_of_units (sign.trans sign'.symm) (units.trans units'.symm))
    | normal positive => exact absurd positive (Nat.lt_irrefl 0)
  | normal positive small finite sign units =>
    cases second with
    | subnormal => exact absurd positive (Nat.lt_irrefl 0)
    | normal _ _ _ sign' units' =>
      exact .inl (eq_of_units (sign.trans sign'.symm) (units.trans units'.symm))
    | infinity | nan => exact absurd small (Nat.lt_irrefl 255)
  | infinity infinite sign =>
    cases second with
    | normal _ small => exact absurd small (Nat.lt_irrefl 255)
    | infinity infinite' sign' =>
      have word := of_decide_eq_true infinite
      have word' := of_decide_eq_true infinite'
      exact .inl (eq_of_units (sign.trans sign'.symm)
        (congrArg unitsOfMagnitude (word.trans word'.symm)))
    | nan nonzero => exact absurd rfl nonzero
  | nan nonzero missing =>
    cases second with
    | normal _ small => exact absurd small (Nat.lt_irrefl 255)
    | infinity => exact absurd rfl nonzero
    | nan _ missing' => exact .inr ⟨missing, missing'⟩

/-- Every significand of binary32 is short enough to be kept. -/
theorem ofRatio_widened {significand doublings : Nat} (short : significand < 2 * shortExponentWeight)
    (bounded : doublings ≤ 254) (negative : Bool) :
    let x := ofRatio negative (significand <<< doublings <<< 925) 1
    x.IsFinite ∧ x.isNegative = negative ∧ x.units = significand <<< doublings <<< 925 := by
  rw [← Nat.shiftLeft_add, ← Nat.mul_one (significand <<< (doublings + 925))]
  have wider : significand < 2 * exponentWeight := Nat.lt_of_lt_of_le short (by decide)
  obtain ⟨finite, sign, units⟩ :=
    ofRatio_exact wider (by omega : doublings + 925 ≤ 2045) negative Nat.one_pos
  exact ⟨finite, sign, units.trans (Nat.mul_one _).symm⟩

section
variable {exponent fraction : Nat} (exponent_lt : exponent < 256)
  (fraction_lt : fraction < shortExponentWeight)
include exponent_lt fraction_lt

theorem shortPattern_fields (negative : Bool) :
    shortPattern negative exponent fraction < 0x100000000 ∧
      decide (0x80000000 ≤ shortPattern negative exponent fraction) = negative ∧
      shortPattern negative exponent fraction % 0x80000000 =
        exponent * shortExponentWeight + fraction := by
  simp only [shortPattern, shortExponentWeight] at fraction_lt ⊢
  cases negative
  · simp only [Bool.false_eq_true, if_false, decide_eq_false_iff_not]
    omega
  · simp only [if_true, decide_eq_true_eq]
    omega

/-- A binary32 number becomes the double with its value. -/
theorem isShort_ofBinary32 (negative : Bool) :
    (ofBinary32 (UInt32.ofNat (shortPattern negative exponent fraction))).IsShort negative
      exponent fraction := by
  obtain ⟨bounded, sign, magnitude⟩ := shortPattern_fields exponent_lt fraction_lt negative
  simp only [ofBinary32, UInt32.toNat_ofNat_of_lt' bounded, sign, magnitude]
  simp only [shortExponentWeight] at fraction_lt ⊢
  rcases Nat.lt_or_eq_of_le (Nat.le_of_lt_succ exponent_lt) with small | rfl
  · rw [if_neg (by omega), if_neg (by omega)]
    rcases Nat.eq_zero_or_pos exponent with rfl | positive
    · have widened := @ofRatio_widened fraction 0 (Nat.lt_of_lt_of_le fraction_lt (by decide))
        (Nat.zero_le _) negative
      rw [Nat.zero_mul, Nat.zero_add, if_pos fraction_lt]
      exact .subnormal widened.1 widened.2.1 widened.2.2
    · have widened := @ofRatio_widened (0x800000 + fraction) (exponent - 1)
        (by simp only [shortExponentWeight]; omega) (by omega) negative
      have remainder : (exponent * 0x800000 + fraction) % 0x800000 = fraction := by omega
      have quotient : (exponent * 0x800000 + fraction) / 0x800000 = exponent := by omega
      rw [if_neg (by omega), remainder, quotient]
      exact .normal positive small widened.1 widened.2.1 widened.2.2
  · rcases Nat.eq_zero_or_pos fraction with rfl | positive
    · rw [if_neg (by omega), if_pos (by omega)]
      refine .infinity (decide_eq_true ?_) (isNegative_ofMagnitude _ (Nat.le_refl _))
      exact magnitude_ofMagnitude _ (Nat.le_refl _)
    · rw [if_pos (by omega)]
      exact .nan (Nat.ne_of_gt positive) (by decide)

end

theorem exists_shortPattern {n : Nat} (bounded : n < 0x100000000) :
    ∃ negative exponent fraction, exponent < 256 ∧ fraction < shortExponentWeight ∧
      n = shortPattern negative exponent fraction := by
  refine ⟨0x80000000 ≤ n, n / shortExponentWeight % 256, n % shortExponentWeight,
    Nat.mod_lt _ (by decide), Nat.mod_lt _ (by decide), ?_⟩
  simp only [shortPattern, shortExponentWeight, decide_eq_true_eq]
  split <;> omega

end NodeScript.Binary64
