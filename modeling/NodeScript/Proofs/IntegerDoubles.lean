import NodeScript.Proofs.NormalizedValue

/-!
# Integers among the doubles

Rounding a ratio whose value has a short significand changes nothing. All integers below 2⁵³ are such
values, so that each of them has a double, and sums, differences, products and exact quotients of these
doubles are again the doubles of the integer results. Comparing such doubles is comparing the integers.
-/
namespace NodeScript.Binary64

theorem divideToEven_mul (n : Nat) {d : Nat} (pos : 0 < d) : divideToEven (n * d) d = n := by
  have quotient : n * d / d = n := Nat.mul_div_cancel n pos
  have remainder : n * d % d = 0 := Nat.mul_mod_left n d
  simp only [divideToEven, quotient, remainder, Nat.mul_zero, if_pos pos]

theorem shiftLeft_pos {n : Nat} (positive : 0 < n) (count : Nat) : 0 < n <<< count := by
  rw [Nat.shiftLeft_eq]
  exact Nat.mul_pos positive (Nat.two_pow_pos count)

theorem two_mul_shiftLeft (n count : Nat) : (2 * n) <<< count = n <<< (count + 1) := by
  rw [Nat.shiftLeft_succ, Nat.shiftLeft_eq, Nat.shiftLeft_eq, Nat.mul_assoc]

theorem shiftLeft_mul (m n count : Nat) : m <<< count * n = m * n <<< count := by
  rw [Nat.shiftLeft_eq, Nat.shiftLeft_eq, Nat.mul_assoc, Nat.mul_comm n]

theorem log2_shiftLeft {n : Nat} (nonzero : n ≠ 0) (count : Nat) :
    (n <<< count).log2 = n.log2 + count := by
  induction count with
  | zero => rfl
  | succ count ih =>
    have shifted : n <<< count ≠ 0 :=
      Nat.ne_of_gt (shiftLeft_pos (Nat.pos_of_ne_zero nonzero) count)
    rw [Nat.shiftLeft_succ, Nat.log2_two_mul shifted, ih, Nat.add_assoc]

/-! ## Exact rounding -/

/-- A significand of at most 53 bits and how often it is doubled, in the form that words have: the
leading bit is the 53rd, unless nothing is doubled. -/
structure IsLeading (significand doublings : Nat) : Prop where
  short : significand < 2 * exponentWeight
  leading : exponentWeight ≤ significand ∨ doublings = 0

section
variable {significand doublings : Nat}

theorem IsLeading.unitsOfMagnitude_eq (form : IsLeading significand doublings) :
    unitsOfMagnitude (doublings * exponentWeight + significand) = significand <<< doublings := by
  obtain ⟨short, leading⟩ := form
  simp only [exponentWeight] at short leading
  simp only [unitsOfMagnitude, exponentWeight]
  by_cases low : significand < 0x10000000000000
  · have plain : doublings = 0 := leading.resolve_left (Nat.not_le.2 low)
    rw [plain, Nat.zero_mul, Nat.zero_add, if_pos low]
    rfl
  · have count : (doublings * 0x10000000000000 + significand) / 0x10000000000000 - 1 =
        doublings := by omega
    have fraction : 0x10000000000000 + (doublings * 0x10000000000000 + significand) %
        0x10000000000000 = significand := by omega
    rw [if_neg (by omega), count, fraction]

/-- The bits that rounding drops are the doublings. -/
theorem IsLeading.log2_sub (form : IsLeading significand doublings) :
    (significand <<< doublings).log2 - 52 = doublings := by
  obtain ⟨short, leading⟩ := form
  simp only [exponentWeight] at short leading
  by_cases zero : significand = 0
  · have plain : doublings = 0 := leading.resolve_left (by omega)
    rw [zero, plain]
    rfl
  · rw [log2_shiftLeft zero]
    rcases leading with normal | plain
    · have bits : significand.log2 = 52 := (Nat.log2_eq_iff zero).2 ⟨by omega, by omega⟩
      omega
    · have bits : significand.log2 < 53 := (Nat.log2_lt zero).2 (by omega)
      omega

theorem IsLeading.ofRatio_eq (form : IsLeading significand doublings) (bounded : doublings ≤ 2045)
    (negative : Bool) {d : Nat} (pos : 0 < d) :
    ofRatio negative (significand <<< doublings * d) d =
      ofMagnitude negative (doublings * exponentWeight + significand) := by
  have finite : doublings * exponentWeight + significand ≤ infinityMagnitude := by
    have short := form.short
    simp only [exponentWeight, infinityMagnitude] at short ⊢
    omega
  simp only [ofRatio, Nat.mul_div_cancel _ pos, form.log2_sub]
  rw [shiftLeft_mul, divideToEven_mul significand (shiftLeft_pos pos doublings),
    Nat.min_eq_left finite]

/-- A short significand can be doubled until it is in the form that words have. -/
theorem exists_isLeading (short : significand < 2 * exponentWeight) (doublings : Nat) :
    ∃ leading fewer, IsLeading leading fewer ∧ fewer ≤ doublings ∧
      leading <<< fewer = significand <<< doublings := by
  induction doublings generalizing significand with
  | zero => exact ⟨significand, 0, ⟨short, .inr rfl⟩, Nat.le_refl 0, rfl⟩
  | succ doublings ih =>
    by_cases normal : exponentWeight ≤ significand
    · exact ⟨significand, doublings + 1, ⟨short, .inl normal⟩, Nat.le_refl _, rfl⟩
    · obtain ⟨leading, fewer, form, few, same⟩ :=
        @ih (2 * significand) (Nat.mul_lt_mul_of_pos_left (Nat.not_le.1 normal) Nat.two_pos)
      refine ⟨leading, fewer, form, Nat.le_succ_of_le few, ?_⟩
      rw [same, two_mul_shiftLeft]

end

/-- The number is neither an infinity nor a NaN. -/
def IsFinite (x : Binary64) : Prop := x.magnitude < infinityMagnitude

instance (x : Binary64) : Decidable x.IsFinite :=
  inferInstanceAs (Decidable (x.magnitude < infinityMagnitude))

theorem IsFinite.isNaN {x : Binary64} (finite : x.IsFinite) : x.isNaN = false :=
  decide_eq_false (Nat.not_lt.2 (Nat.le_of_lt finite))

theorem IsFinite.isInfinite {x : Binary64} (finite : x.IsFinite) : x.isInfinite = false :=
  decide_eq_false (Nat.ne_of_lt finite)

/-- A ratio with a short significand is rounded to itself. -/
theorem ofRatio_exact {significand doublings : Nat} (short : significand < 2 * exponentWeight)
    (bounded : doublings ≤ 2045) (negative : Bool) {d : Nat} (pos : 0 < d) :
    let x := ofRatio negative (significand <<< doublings * d) d
    x.IsFinite ∧ x.isNegative = negative ∧ x.units = significand <<< doublings := by
  obtain ⟨leading, fewer, form, few, same⟩ := exists_isLeading short doublings
  have finite : fewer * exponentWeight + leading < infinityMagnitude := by
    have short := form.short
    simp only [exponentWeight, infinityMagnitude] at short ⊢
    omega
  have word := magnitude_ofMagnitude negative (Nat.le_of_lt finite)
  intro x
  have rounded : x = ofMagnitude negative (fewer * exponentWeight + leading) := by
    simp only [x, ← same]
    exact form.ofRatio_eq (Nat.le_trans few bounded) negative pos
  rw [rounded]
  refine ⟨?_, isNegative_ofMagnitude negative (Nat.le_of_lt finite), ?_⟩
  · rwa [IsFinite, word]
  · rw [units, word, form.unitsOfMagnitude_eq, same]

/-! ## Signs -/

/-- The integer with the given sign and size. -/
def signed (negative : Bool) (size : Nat) : Int := if negative then -size else size

theorem signedUnits_eq (x : Binary64) : x.signedUnits = signed x.isNegative x.units := rfl

theorem natAbs_signed (negative : Bool) (size : Nat) : (signed negative size).natAbs = size := by
  cases negative
  · exact Int.natAbs_natCast size
  · exact (Int.natAbs_neg _).trans (Int.natAbs_natCast size)

theorem signed_mul (negative other : Bool) (m n : Nat) :
    signed (negative != other) (m * n) = signed negative m * signed other n := by
  have product : ((m * n : Nat) : Int) = m * n := Int.natCast_mul m n
  cases negative <;> cases other
  · exact product
  · exact (congrArg Neg.neg product).trans (Int.mul_neg m n).symm
  · exact (congrArg Neg.neg product).trans (Int.neg_mul m n).symm
  · exact product.trans (Int.neg_mul_neg m n).symm

theorem signed_natAbs (n : Int) : signed (n < 0) n.natAbs = n := by
  by_cases negative : n < 0
  · simp only [signed, negative, decide_true, if_true]
    omega
  · simp only [signed, negative, decide_false, Bool.false_eq_true, if_false]
    omega

theorem unitsPerOne_pos : 0 < unitsPerOne := by
  rw [unitsPerOne]
  exact shiftLeft_pos Nat.one_pos 1074

theorem unitsPerOne_cast_pos : (0 : Int) < unitsPerOne := Int.natCast_pos.2 unitsPerOne_pos

theorem mul_unitsPerOne (n : Nat) : n * unitsPerOne = n <<< 1074 := by
  rw [unitsPerOne, Nat.one_shiftLeft, Nat.shiftLeft_eq]

/-! ## Integers -/

/-- The number is finite and its value is the integer. -/
structure IsInteger (x : Binary64) (n : Int) : Prop where
  finite : x.IsFinite
  signedUnits_eq : x.signedUnits = n * unitsPerOne

/-- Integers of this size and above may have more bits than a significand. -/
abbrev integerLimit : Nat := 2 * exponentWeight

section
variable {x y : Binary64} {m n : Int}

theorem isInteger_of_units (finite : x.IsFinite) (units : x.units = n.natAbs * unitsPerOne)
    (sign : signed x.isNegative n.natAbs = n) : x.IsInteger n := by
  refine ⟨finite, ?_⟩
  have factor := signed_mul x.isNegative false n.natAbs unitsPerOne
  rw [Bool.bne_false, sign] at factor
  rw [Binary64.signedUnits_eq, units]
  exact factor

theorem IsInteger.units_eq (integer : x.IsInteger n) : x.units = n.natAbs * unitsPerOne := by
  have size := congrArg Int.natAbs integer.signedUnits_eq
  rwa [Binary64.signedUnits_eq, natAbs_signed, Int.natAbs_mul, Int.natAbs_natCast] at size

theorem IsInteger.signed_natAbs (integer : x.IsInteger n) :
    signed x.isNegative n.natAbs = n := by
  have factor := signed_mul x.isNegative false n.natAbs unitsPerOne
  rw [Bool.bne_false, ← integer.units_eq, ← Binary64.signedUnits_eq,
    integer.signedUnits_eq] at factor
  exact (Int.eq_of_mul_eq_mul_right (Int.ne_of_gt unitsPerOne_cast_pos) factor).symm

/-- A double is no more than one integer. -/
theorem IsInteger.unique (first : x.IsInteger m) (second : x.IsInteger n) : m = n :=
  Int.eq_of_mul_eq_mul_right (Int.ne_of_gt unitsPerOne_cast_pos)
    (first.signedUnits_eq.symm.trans second.signedUnits_eq)

/-- A ratio that is an integer with a short significand is rounded to that integer. -/
theorem isInteger_ofRatio (small : n.natAbs < integerLimit) {negative : Bool}
    (sign : signed negative n.natAbs = n) {d : Nat} (pos : 0 < d) :
    (ofRatio negative (n.natAbs * unitsPerOne * d) d).IsInteger n := by
  obtain ⟨finite, isNegative, units⟩ := @ofRatio_exact _ 1074 small (by decide) negative d pos
  rw [← mul_unitsPerOne] at finite isNegative units
  exact isInteger_of_units finite units (by rw [isNegative, sign])

theorem isInteger_ofInt (small : n.natAbs < integerLimit) : (ofInt n).IsInteger n := by
  have exact_ratio := isInteger_ofRatio small (signed_natAbs n) Nat.one_pos
  rwa [Nat.mul_one] at exact_ratio

theorem isInteger_ofNat {n : Nat} (small : n < integerLimit) : (ofNat n).IsInteger n := by
  have exact_ratio := @isInteger_ofRatio n small false rfl 1 Nat.one_pos
  rwa [Nat.mul_one] at exact_ratio

theorem isInteger_zero (negative : Bool) : (zero negative).IsInteger 0 := by
  cases negative <;> exact ⟨by decide, by decide⟩

section
variable (number : x.isNaN = false)
include number

theorem magnitude_le_infinity : x.magnitude ≤ infinityMagnitude :=
  Nat.not_lt.1 (of_decide_eq_false number)

theorem magnitude_neg : x.neg.magnitude = x.magnitude :=
  magnitude_ofMagnitude _ (magnitude_le_infinity number)

theorem isNegative_neg : x.neg.isNegative = !x.isNegative :=
  isNegative_ofMagnitude _ (magnitude_le_infinity number)

end

theorem IsInteger.neg (integer : x.IsInteger n) : x.neg.IsInteger (-n) := by
  have word := magnitude_neg integer.finite.isNaN
  have isNegative := isNegative_neg integer.finite.isNaN
  refine isInteger_of_units ?_ ?_ ?_
  · rw [IsFinite, word]
    exact integer.finite
  · rw [units, word, Int.natAbs_neg]
    exact integer.units_eq
  · have flipped := signed_mul x.isNegative true n.natAbs 1
    rw [Bool.bne_true, Nat.mul_one, integer.signed_natAbs] at flipped
    rw [isNegative, Int.natAbs_neg, flipped]
    exact Int.mul_neg_one n

theorem IsInteger.add (left : x.IsInteger m) (right : y.IsInteger n)
    (small : (m + n).natAbs < integerLimit) : (x.add y).IsInteger (m + n) := by
  have sum : x.signedUnits + y.signedUnits = (m + n) * unitsPerOne := by
    rw [left.signedUnits_eq, right.signedUnits_eq, Int.add_mul]
  simp only [Binary64.add, left.finite.isNaN, right.finite.isNaN, left.finite.isInfinite,
    right.finite.isInfinite, Bool.or_self, Bool.false_eq_true, if_false, sum]
  split
  · next cancelled =>
    have none : m + n = 0 :=
      (Int.mul_eq_zero.1 cancelled).resolve_right (Int.ne_of_gt unitsPerOne_cast_pos)
    rw [none]
    exact isInteger_zero _
  · have sign := @Int.mul_lt_mul_right unitsPerOne (m + n) 0 unitsPerOne_cast_pos
    rw [Int.zero_mul] at sign
    rw [Int.natAbs_mul, Int.natAbs_natCast, decide_eq_decide.2 sign,
      ← Nat.mul_one ((m + n).natAbs * unitsPerOne)]
    exact isInteger_ofRatio small (Binary64.signed_natAbs _) Nat.one_pos

theorem IsInteger.sub (left : x.IsInteger m) (right : y.IsInteger n)
    (small : (m - n).natAbs < integerLimit) : (x.sub y).IsInteger (m - n) := by
  rw [Int.sub_eq_add_neg] at small ⊢
  exact left.add right.neg small

theorem IsInteger.mul (left : x.IsInteger m) (right : y.IsInteger n)
    (small : (m * n).natAbs < integerLimit) : (x.mul y).IsInteger (m * n) := by
  have product : x.units * y.units = (m * n).natAbs * unitsPerOne * unitsPerOne := by
    rw [left.units_eq, right.units_eq, Int.natAbs_mul]
    simp only [Nat.mul_assoc, Nat.mul_left_comm]
  have sign : signed (x.isNegative != y.isNegative) (m * n).natAbs = m * n := by
    rw [Int.natAbs_mul, signed_mul, left.signed_natAbs, right.signed_natAbs]
  simp only [Binary64.mul, left.finite.isNaN, right.finite.isNaN, left.finite.isInfinite,
    right.finite.isInfinite, Bool.or_self, Bool.false_eq_true, if_false, product]
  exact isInteger_ofRatio small sign unitsPerOne_pos

/-- Only the quotient has to be small. -/
theorem IsInteger.div (left : x.IsInteger (m * n)) (right : y.IsInteger n) (nonzero : n ≠ 0)
    (small : m.natAbs < integerLimit) : (x.div y).IsInteger m := by
  have divisor : 0 < n.natAbs * unitsPerOne :=
    Nat.mul_pos (Int.natAbs_pos.2 nonzero) unitsPerOne_pos
  have ratio : (m * n).natAbs * unitsPerOne * unitsPerOne =
      m.natAbs * unitsPerOne * (n.natAbs * unitsPerOne) := by
    rw [Int.natAbs_mul]
    simp only [Nat.mul_assoc, Nat.mul_left_comm]
  have sign : signed (x.isNegative != y.isNegative) m.natAbs = m := by
    -- Multiplied by the divisor both sides are the dividend.
    refine Int.eq_of_mul_eq_mul_right nonzero ?_
    have restored := signed_mul (x.isNegative != y.isNegative) y.isNegative m.natAbs n.natAbs
    rw [right.signed_natAbs, Bool.bne_assoc, bne_self_eq_false, Bool.bne_false, ← Int.natAbs_mul,
      left.signed_natAbs] at restored
    exact restored.symm
  simp only [Binary64.div, left.finite.isNaN, right.finite.isNaN, left.finite.isInfinite,
    right.finite.isInfinite, Bool.or_self, Bool.false_eq_true, if_false, left.units_eq,
    right.units_eq, Nat.ne_of_gt divisor, ratio]
  exact isInteger_ofRatio small sign divisor

/-! ## Comparisons -/

theorem eq_iff : x.eq y = true ↔
    x.isNaN = false ∧ y.isNaN = false ∧ x.signedUnits = y.signedUnits := by
  simp [Binary64.eq, and_assoc]

theorem ne_eq_not_eq : x.ne y = !x.eq y := by
  rw [Binary64.ne, Binary64.eq, Bool.not_and, Bool.not_and, Bool.not_not, Bool.not_not]
  rfl

theorem lt_iff : x.lt y = true ↔
    x.isNaN = false ∧ y.isNaN = false ∧ x.signedUnits < y.signedUnits := by
  simp [Binary64.lt, and_assoc]

theorem le_iff : x.le y = true ↔
    x.isNaN = false ∧ y.isNaN = false ∧ x.signedUnits ≤ y.signedUnits := by
  simp [Binary64.le, and_assoc]

section
variable (left : x.IsInteger m) (right : y.IsInteger n)
include left right

theorem IsInteger.eq_iff : x.eq y = true ↔ m = n := by
  simp only [Binary64.eq_iff, left.finite.isNaN, right.finite.isNaN, left.signedUnits_eq,
    right.signedUnits_eq, Int.mul_eq_mul_right_iff (Int.ne_of_gt unitsPerOne_cast_pos), true_and]

theorem IsInteger.lt_iff : x.lt y = true ↔ m < n := by
  simp only [Binary64.lt_iff, left.finite.isNaN, right.finite.isNaN, left.signedUnits_eq,
    right.signedUnits_eq, Int.mul_lt_mul_right unitsPerOne_cast_pos, true_and]

theorem IsInteger.le_iff : x.le y = true ↔ m ≤ n := by
  simp only [Binary64.le_iff, left.finite.isNaN, right.finite.isNaN, left.signedUnits_eq,
    right.signedUnits_eq, Int.mul_le_mul_iff_of_pos_right unitsPerOne_cast_pos, true_and]

end
end
end NodeScript.Binary64
