import NodeScript.Proofs.IntegerArithmetic

/-!
# Operators on words

The bit operators, the shifts, the integer quotient and the wrapping product read their operands as
integers of 32 bits, whatever these are. Here every one of them is an operation on the integers: the
exact result where it fits 32 bits, and what it leaves modulo 2³² where it need not fit.
-/
namespace NodeScript

/-- The integer of 32 bits that differs from `n` by a multiple of 2³². -/
def WrapsTo (n : Int) (x : Int32) : Prop := (0x100000000 : Int) ∣ n - x.toInt

instance (n : Int) (x : Int32) : Decidable (WrapsTo n x) :=
  inferInstanceAs (Decidable ((0x100000000 : Int) ∣ n - x.toInt))

theorem wrapsTo_of_toInt_eq {n : Int} {x : Int32} (wrapped : x.toInt = n.bmod 0x100000000) :
    WrapsTo n x := by
  rw [WrapsTo, wrapped]
  exact Int.dvd_self_sub_bmod

theorem WrapsTo.of_dvd_sub {m n : Int} {x : Int32} (wraps : WrapsTo m x)
    (same : (0x100000000 : Int) ∣ n - m) : WrapsTo n x := by
  rw [WrapsTo] at wraps ⊢
  omega

/-- There is only one such integer, so that nothing is changed where `n` fits. -/
theorem WrapsTo.toInt_eq_iff {n : Int} {x : Int32} (wraps : WrapsTo n x) :
    x.toInt = n ↔ FitsInt32 n := by
  have low := x.le_toInt
  have high := x.toInt_lt
  rw [WrapsTo] at wraps
  rw [FitsInt32]
  omega

/-! ## How far a shift goes -/

/-- The amount that a shift operand stands for: what its five low bits spell. -/
def shiftCount (y : Int32) : Nat := (y.toInt % 32).toNat

theorem shiftCount_cast (y : Int32) : (shiftCount y : Int) = y.toInt % 32 :=
  Int.toNat_of_nonneg (Int.emod_nonneg _ (by decide))

theorem shiftCount_lt (y : Int32) : shiftCount y < 32 := by
  have bounded := Int.emod_lt_of_pos y.toInt (show (0 : Int) < 32 by decide)
  have count := shiftCount_cast y
  omega

/-- As the machine takes it for integers with a sign. -/
theorem toNat_smod_eq (y : Int32) : (y.toBitVec.smod 32).toNat = shiftCount y := by
  have remainder : (y.toBitVec.smod 32).toInt = shiftCount y := by
    rw [shiftCount_cast, BitVec.toInt_smod]
    exact Int.fmod_eq_emod_of_nonneg _ (by decide)
  have short := shiftCount_lt y
  rw [BitVec.toInt_eq_toNat_cond] at remainder
  omega

/-- As the machine takes it for integers without a sign. -/
theorem toNat_mod_eq (y : Int32) : y.toUInt32.toNat % 32 = shiftCount y := by
  have count := shiftCount_cast y
  have bits : y.toInt = y.toBitVec.toInt := rfl
  rw [bits, BitVec.toInt_eq_toNat_cond] at count
  change y.toBitVec.toNat % 32 = shiftCount y
  omega

theorem shiftLeft_cast (n count : Nat) : ((n <<< count : Nat) : Int) = n * (1 <<< count : Nat) := by
  rw [Nat.shiftLeft_eq, Nat.one_shiftLeft, Int.natCast_mul]

/-! ## Operations on words as operations on integers -/

section
variable (x y : Int32)

/-- The bits of an integer spell it modulo 2³². -/
theorem toNat_toUInt32_cast : (x.toUInt32.toNat : Int) = x.toInt % 0x100000000 := by
  have bits : x.toInt = x.toBitVec.toInt := rfl
  have bounded := x.toBitVec.isLt
  rw [bits, BitVec.toInt_eq_toNat_cond]
  change (x.toBitVec.toNat : Int) = _
  omega

theorem wrapsTo_mul : WrapsTo (x.toInt * y.toInt) (x * y) :=
  wrapsTo_of_toInt_eq (Int32.toInt_mul x y)

theorem wrapsTo_shiftLeft : WrapsTo (x.toInt * (1 <<< shiftCount y : Nat)) (x <<< y) := by
  have shifted : (x <<< y).toInt = ((x.toUInt32.toNat <<< shiftCount y : Nat) : Int).bmod
      0x100000000 := by
    change (x <<< y).toBitVec.toInt = _
    rw [Int32.toBitVec_shiftLeft, BitVec.shiftLeft_eq', toNat_smod_eq, BitVec.toInt_shiftLeft]
    rfl
  refine (wrapsTo_of_toInt_eq shifted).of_dvd_sub ?_
  -- What is shifted are the bits, and these differ from the integer by a multiple of 2³².
  rw [shiftLeft_cast x.toUInt32.toNat, toNat_toUInt32_cast, ← Int.sub_mul]
  exact Int.dvd_mul_of_dvd_left Int.dvd_self_sub_emod

/-- A shift in copies of the sign divides and rounds down. -/
theorem toInt_shiftRight : (x >>> y).toInt = x.toInt / (1 <<< shiftCount y : Nat) := by
  change (x >>> y).toBitVec.toInt = _
  rw [Int32.toBitVec_shiftRight, BitVec.toInt_sshiftRight', toNat_smod_eq,
    Int.shiftRight_eq_div_pow, Nat.one_shiftLeft]
  rfl

/-- A shift in zeros divides what the bits spell. -/
theorem toNat_shiftRight : ((x.toUInt32 >>> y.toUInt32).toNat : Int) =
    x.toInt % (0x100000000 : Int) / (1 <<< shiftCount y : Nat) := by
  rw [UInt32.toNat_shiftRight, toNat_mod_eq, Nat.shiftRight_eq_div_pow, Int.natCast_ediv,
    toNat_toUInt32_cast, Nat.one_shiftLeft]

theorem toInt_not : (~~~x).toInt = -x.toInt - 1 := by
  have low := x.le_toInt
  have high := x.toInt_lt
  rw [Int32.toInt_not, Int.bmod_eq_of_le_mul_two (by omega) (by omega)]

/-- The quotient of integers rounded toward zero: what remains is smaller than the divisor and has the
sign of the dividend. -/
def IsTruncatedQuotient (x y quotient : Int) : Prop :=
  ∃ remainder, x = quotient * y + remainder ∧ remainder.natAbs < y.natAbs ∧
    (remainder = 0 ∨ remainder.sign = x.sign)

theorem isTruncatedQuotient_tdiv {m n : Int} (divisor : n ≠ 0) :
    IsTruncatedQuotient m n (m.tdiv n) := by
  refine ⟨m.tmod n, ?_, ?_, ?_⟩
  · rw [Int.mul_comm]
    exact (Int.mul_tdiv_add_tmod m n).symm
  · rw [Int.natAbs_tmod]
    exact Nat.mod_lt _ (Int.natAbs_pos.2 divisor)
  · rw [Int.sign_tmod]
    split
    · next divides => exact .inl (Int.tmod_eq_zero_of_dvd divides)
    · exact .inr rfl

/-- One quotient does not fit. -/
theorem toInt_div (divisor : y ≠ 0) (small : ¬(x = Int32.minValue ∧ y = -1)) :
    IsTruncatedQuotient x.toInt y.toInt (x / y).toInt := by
  have quotient : (x / y).toInt = x.toInt.tdiv y.toInt := by
    by_cases least : x = Int32.minValue
    · exact Int32.toInt_div_of_ne_right x y fun minus => small ⟨least, minus⟩
    · exact Int32.toInt_div_of_ne_left x y least
  rw [quotient]
  exact isTruncatedQuotient_tdiv fun zero => divisor (Int32.toInt_inj.1 zero)

/-- The word of a number below 2³¹ is that number. -/
theorem toInt_toInt32_of_lt {n : UInt32} (low : n.toNat < 0x80000000) : n.toInt32.toInt = n.toNat := by
  change n.toBitVec.toInt = n.toBitVec.toNat
  exact BitVec.toInt_eq_toNat_of_lt (show 2 * n.toNat < 0x100000000 by omega)

end

/-! ## Sums of bits -/

/-- Two numbers have the bits of which they share none or both in sum; the bits of just one of them are
those of either without those of both. -/
theorem and_or_xor_sum (m n : Nat) :
    (m &&& n) + (m ||| n) = m + n ∧ (m ^^^ n) + (m &&& n) = (m ||| n) := by
  induction m using Nat.strongRecOn generalizing n with
  | ind m ih =>
    by_cases zero : m = 0
    · simp [zero]
    · obtain ⟨sum, difference⟩ := ih (m / 2) (by omega) (n / 2)
      have both := @Nat.and_div_two m n
      have either := @Nat.or_div_two m n
      have one := @Nat.xor_div_two m n
      have lowest := @Nat.and_mod_two_eq_one m n
      have lowest' := @Nat.or_mod_two_eq_one m n
      have lowest'' := @Nat.xor_mod_two_eq_one m n
      omega

namespace Value

/-! ## The operators -/

theorem IsPromoted.isInt_iff {v : Value} {n : Int} (promoted : v.IsPromoted n) :
    v.isInt = true ↔ FitsInt32 n := by
  obtain ⟨x, rfl, rfl⟩ | ⟨large, d, rfl, -⟩ := promoted
  · exact iff_of_true rfl (fitsInt32_toInt x)
  · exact iff_of_false Bool.false_ne_true large

section
variable (a b : Value)

theorem idiv_of_ne_zero (divisor : b.toInt32 ≠ 0) :
    idiv a b = .int (a.toInt32 / b.toInt32) := if_neg divisor

/-- A result with the top bit set is no integer of 32 bits. -/
theorem isPromoted_shiftRightUnsigned : (shiftRightUnsigned a b).IsPromoted
    (a.toInt32.toInt % (0x100000000 : Int) / (1 <<< shiftCount b.toInt32 : Nat)) := by
  have size := (a.toInt32.toUInt32 >>> b.toInt32.toUInt32).toNat_lt
  rw [← toNat_shiftRight]
  simp only [shiftRightUnsigned, UInt32.lt_iff_toNat_lt]
  generalize a.toInt32.toUInt32 >>> b.toInt32.toUInt32 = result at size ⊢
  split
  · next low => exact .inl ⟨_, rfl, toInt_toInt32_of_lt low⟩
  · next high =>
    have large : ¬FitsInt32 result.toNat := fun fits => high (Int.ofNat_lt.1 fits.2)
    have exact_double := Binary64.isInteger_ofNat (Nat.lt_trans size (by decide))
    exact .inr ⟨large, _, rfl, exact_double⟩

end

/-- The operators on words compute with integers. With `x` and `y` for what the operands read as and
`weight` for two to the shift amount: the integer quotient is rounded toward zero, except that it is zero
where the divisor is and that the one quotient that does not fit wraps around; products and left shifts
are exact up to a multiple of 2³²; right shifts divide and round down, the unsigned one what the bits of
`x` spell, which gives an integer just below 2³¹ and an exact double from there on; the complement is
minus `x` minus one; and the bit operators work on each bit alone, so that the bits of which two operands
share none or both add up. -/
theorem word_operators_exact (a b : Value) :
    let x := a.toInt32.toInt
    let y := b.toInt32.toInt
    let weight : Nat := 1 <<< (y % 32).toNat
    let bits (n : Int32) : Nat := n.toUInt32.toNat
    (y = 0 → idiv a b = .int 0) ∧
    (x = -0x80000000 → y = -1 → idiv a b = .int Int32.minValue) ∧
    (y ≠ 0 → ¬(x = -0x80000000 ∧ y = -1) →
      ∃ quotient : Int32, idiv a b = .int quotient ∧ IsTruncatedQuotient x y quotient.toInt) ∧
    (∃ product : Int32, imul a b = .int product ∧ WrapsTo (x * y) product) ∧
    (∃ shifted : Int32, shiftLeft a b = .int shifted ∧ WrapsTo (x * weight) shifted) ∧
    (∃ shifted : Int32, shiftRight a b = .int shifted ∧ shifted.toInt = x / weight) ∧
    (shiftRightUnsigned a b).IsPromoted (x % (0x100000000 : Int) / weight) ∧
    ((shiftRightUnsigned a b).isInt = true ↔ x % (0x100000000 : Int) / weight < 0x80000000) ∧
    (∃ complement : Int32, bitNot a = .int complement ∧ complement.toInt = -x - 1) ∧
    ∃ both either one : Int32,
      bitAnd a b = .int both ∧ bitOr a b = .int either ∧ bitXor a b = .int one ∧
      bits both + bits either = bits a.toInt32 + bits b.toInt32 ∧
      (bits one : Int) = bits either - bits both ∧
      ∀ i, (bits both).testBit i = ((bits a.toInt32).testBit i && (bits b.toInt32).testBit i) ∧
        (bits either).testBit i = ((bits a.toInt32).testBit i || (bits b.toInt32).testBit i) ∧
        (bits one).testBit i = ((bits a.toInt32).testBit i != (bits b.toInt32).testBit i) := by
  intro x y weight bits
  have unsigned := isPromoted_shiftRightUnsigned a b
  refine ⟨fun zero => ?_, fun low one => ?_, fun divisor small => ?_, ⟨_, rfl, wrapsTo_mul _ _⟩,
    ⟨_, rfl, wrapsTo_shiftLeft _ _⟩, ⟨_, rfl, toInt_shiftRight _ _⟩, unsigned, ?_,
    ⟨_, rfl, toInt_not _⟩, ⟨_, _, _, rfl, rfl, rfl, ?_⟩⟩
  · exact if_pos (Int32.toInt_inj.1 zero)
  · have dividend : a.toInt32 = Int32.minValue := Int32.toInt_inj.1 low
    have divisor : b.toInt32 = -1 := Int32.toInt_inj.1 one
    rw [idiv, dividend, divisor]
    rfl
  · have nonzero : b.toInt32 ≠ 0 := fun zero => divisor (congrArg Int32.toInt zero)
    refine ⟨_, idiv_of_ne_zero a b nonzero, toInt_div _ _ nonzero ?_⟩
    rintro ⟨low, one⟩
    exact small ⟨congrArg Int32.toInt low, congrArg Int32.toInt one⟩
  · have nonneg : 0 ≤ x % (0x100000000 : Int) / weight :=
      Int.ediv_nonneg (Int.emod_nonneg _ (by decide)) (Int.natCast_nonneg _)
    rw [unsigned.isInt_iff, FitsInt32]
    exact and_iff_right (Int.le_trans (by decide) nonneg)
  · obtain ⟨sum, difference⟩ := and_or_xor_sum (bits a.toInt32) (bits b.toInt32)
    have rest : bits (a.toInt32 ^^^ b.toInt32) + bits (a.toInt32 &&& b.toInt32) =
        bits (a.toInt32 ||| b.toInt32) := difference
    exact ⟨sum, by omega, fun i =>
      ⟨Nat.testBit_and _ _ i, Nat.testBit_or _ _ i, Nat.testBit_xor _ _ i⟩⟩

/-- Null as a divisor, the quotient that does not fit, a negative one that is not rounded down, a shift of a
truth value by minus one, and one by 32, which leaves the highest bit where it is. -/
theorem word_operators_exact_edges :
    idiv (.int 7) .null = .int 0 ∧
    idiv (.int Int32.minValue) (.int (-1)) = .int Int32.minValue ∧
    (∃ quotient : Int32, idiv (.int (-7)) (.int 2) = .int quotient ∧
      IsTruncatedQuotient (-7) 2 quotient.toInt) ∧
    ¬IsTruncatedQuotient (-7) 2 (-4) ∧
    (∃ shifted : Int32, shiftLeft (.bool true) (.int (-1)) = .int shifted ∧
      WrapsTo 0x80000000 shifted) ∧
    ¬(shiftRightUnsigned (.int (-1)) (.int 32)).isInt = true := by
  obtain ⟨zero, -⟩ := word_operators_exact (.int 7) .null
  obtain ⟨-, large, -⟩ := word_operators_exact (.int Int32.minValue) (.int (-1))
  obtain ⟨-, -, quotient, -⟩ := word_operators_exact (.int (-7)) (.int 2)
  obtain ⟨-, -, -, -, shift, -⟩ := word_operators_exact (.bool true) (.int (-1))
  obtain ⟨-, -, -, -, -, -, -, unsigned, -⟩ := word_operators_exact (.int (-1)) (.int 32)
  refine ⟨zero rfl, large rfl rfl, quotient (by decide) (by decide), ?_, shift, ?_⟩
  · rintro ⟨remainder, exact_sum, -, sign⟩
    rcases sign with none | same
    · omega
    · obtain rfl : remainder = 1 := by omega
      cases same
  · rw [unsigned]
    decide

end Value
end NodeScript
