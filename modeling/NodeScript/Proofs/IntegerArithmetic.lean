import NodeScript.Proofs.FittingInteger
import NodeScript.Proofs.NumericOrder

/-!
# Arithmetic on integers and on their doubles

Sums, differences, products and quotients of integers are integers just where the exact result is one of
32 bits, and are computed with doubles everywhere else. The two computations never disagree: on the
doubles of the operands the operation gives the double of the integer result, and a sum or a difference
that does not fit 32 bits is exact as a double.
-/
namespace NodeScript

/-! ## Operations on doubles that extend operations on integers -/

namespace Binary64

/-- On the doubles of integers the operation gives the double of the exact result, as long as that is
an integer with a short significand. -/
def Extends (rounded : Binary64 → Binary64 → Binary64) (exact : Int → Int → Option Int) : Prop :=
  ∀ {x y : Binary64} {m n result : Int}, x.IsInteger m → y.IsInteger n →
    exact m n = some result → result.natAbs < integerLimit → (rounded x y).IsInteger result

theorem extends_add : Extends add fun m n => some (m + n) := by
  rintro x y m n _ left right ⟨⟩ small
  exact left.add right small

theorem extends_sub : Extends sub fun m n => some (m - n) := by
  rintro x y m n _ left right ⟨⟩ small
  exact left.sub right small

theorem extends_mul : Extends mul fun m n => some (m * n) := by
  rintro x y m n _ left right ⟨⟩ small
  exact left.mul right small

end Binary64

/-- The exact quotients of integers. -/
theorem exactQuotient_eq_some_iff {m n quotient : Int} :
    (if n ≠ 0 ∧ m.tmod n = 0 then some (m.tdiv n) else none) = some quotient ↔
      n ≠ 0 ∧ quotient * n = m := by
  constructor
  · intro exact_quotient
    split at exact_quotient
    · next divides =>
      obtain ⟨nonzero, remainder⟩ := divides
      cases exact_quotient
      exact ⟨nonzero, Int.tdiv_mul_cancel (Int.dvd_of_tmod_eq_zero remainder)⟩
    · cases exact_quotient
  · rintro ⟨nonzero, rfl⟩
    rw [if_pos ⟨nonzero, Int.mul_tmod_left quotient n⟩, Int.mul_tdiv_cancel quotient nonzero]

theorem Binary64.extends_div : Extends div fun m n =>
    if n ≠ 0 ∧ m.tmod n = 0 then some (m.tdiv n) else none := by
  intro x y m n quotient left right exact_quotient small
  obtain ⟨nonzero, rfl⟩ := exactQuotient_eq_some_iff.1 exact_quotient
  exact left.div right nonzero small

namespace Value

/-! ## Results that are integers -/

section
variable {exact : Int → Int → Option Int} {rounded : Binary64 → Binary64 → Binary64} {a b : Value}

theorem ints?_eq_some_iff {result : Int32} : ints? exact a b = some result ↔
    ∃ x y : Int32, a = .int x ∧ b = .int y ∧ exact x.toInt y.toInt = some result.toInt := by
  constructor
  · intro found
    cases a with
    | int x =>
      cases b with
      | int y =>
        obtain ⟨n, exact_result, kept⟩ := Option.bind_eq_some_iff.1 found
        split at kept
        · next fits =>
          cases kept
          exact ⟨x, y, rfl, rfl, by rw [exact_result, FitsInt32.toInt_ofInt fits]⟩
        · cases kept
      | double | bool | null | undefined | nan | packetBuffer | handle => cases found
    | double | bool | null | undefined | nan | packetBuffer | handle => cases found
  · rintro ⟨x, y, rfl, rfl, exact_result⟩
    rw [ints?, exact_result]
    exact (if_pos (fitsInt32_toInt result)).trans (congrArg some (Int32.ofInt_toInt result))

theorem arithmetic_eq_int_iff {result : Int32} : arithmetic exact rounded a b = .int result ↔
    ints? exact a b = some result := by
  rw [arithmetic]
  cases ints? exact a b with
  | some found => simp
  | none =>
    have noInt := isInt_ofBinary64 (rounded a.toBinary64 b.toBinary64)
    refine iff_of_false (fun same => ?_) (fun same => by cases same)
    exact Bool.false_ne_true (noInt.symm.trans (congrArg isInt same))

theorem isInt_eq_true_iff {v : Value} : v.isInt = true ↔ ∃ x, v = .int x := by
  cases v <;> simp [isInt]

/-- The operator gives an integer just where both operands are integers that have an exact result of 32
bits, and then that result. Everywhere else it rounds the operation on doubles. -/
structure Promotes (operator : Value → Value → Value) (IsExact : Int → Int → Int → Prop)
    (rounded : Binary64 → Binary64 → Binary64) : Prop where
  isInt_iff (a b : Value) : (operator a b).isInt = true ↔ ∃ (x y : Int32) (result : Int),
    a = .int x ∧ b = .int y ∧ IsExact x.toInt y.toInt result ∧ FitsInt32 result
  exact (a b : Value) (result : Int32) (integer : operator a b = .int result) : ∃ x y : Int32,
    a = .int x ∧ b = .int y ∧ IsExact x.toInt y.toInt result.toInt
  promoted (a b : Value) (noInt : (operator a b).isInt = false) :
    operator a b = ofBinary64 (rounded a.toBinary64 b.toBinary64)

theorem promotes_arithmetic {IsExact : Int → Int → Int → Prop}
    (decides : ∀ {m n result : Int}, exact m n = some result ↔ IsExact m n result) :
    Promotes (arithmetic exact rounded) IsExact rounded where
  isInt_iff a b := by
    simp only [isInt_eq_true_iff, arithmetic_eq_int_iff, ints?_eq_some_iff, decides]
    constructor
    · rintro ⟨result, x, y, left, right, exact_result⟩
      exact ⟨x, y, result.toInt, left, right, exact_result, fitsInt32_toInt result⟩
    · rintro ⟨x, y, result, left, right, exact_result, fits⟩
      exact ⟨Int32.ofInt result, x, y, left, right, fits.toInt_ofInt.symm ▸ exact_result⟩
  exact a b result integer := by
    obtain ⟨x, y, left, right, exact_result⟩ :=
      ints?_eq_some_iff.1 (arithmetic_eq_int_iff.1 integer)
    exact ⟨x, y, left, right, decides.1 exact_result⟩
  promoted a b noInt := by
    rw [arithmetic] at noInt ⊢
    cases found : ints? exact a b with
    | some result =>
      rw [found] at noInt
      cases noInt
    | none => rfl

end

/-- The value is the integer: as an integer of 32 bits if it fits, and as a double otherwise. -/
def IsPromoted (v : Value) (n : Int) : Prop :=
  (∃ x : Int32, v = .int x ∧ x.toInt = n) ∨ ¬FitsInt32 n ∧ ∃ d, v = .double d ∧ d.IsInteger n

/-- One more than the greatest integer of 32 bits is a double. -/
theorem isPromoted_ofNat_limit : (double (.ofNat 0x80000000)).IsPromoted 0x80000000 := by
  have large : ¬FitsInt32 0x80000000 := fun fits => Int.lt_irrefl _ fits.2
  exact .inr ⟨large, _, rfl, Binary64.isInteger_ofNat (n := 0x80000000) (by decide)⟩

theorem isPromoted_neg (x : Int32) : (neg (.int x)).IsPromoted (-x.toInt) := by
  rw [neg]
  split
  · next least =>
    rw [least]
    exact isPromoted_ofNat_limit
  · next other => exact .inl ⟨_, rfl, toInt_neg_of_ne_least other⟩

theorem isPromoted_abs (x : Int32) : (abs (.int x)).IsPromoted x.toInt.natAbs := by
  rw [abs]
  split
  · next least =>
    rw [least]
    exact isPromoted_ofNat_limit
  · next other => exact .inl ⟨_, rfl, toInt_abs_of_ne_least other⟩

/-- Integers are computed with as long as they fit. A sum, a difference, a product or a quotient is an
integer just where both operands are integers and the exact result, which a quotient of integers need
not have, fits 32 bits; then it is that result, and everywhere else the operation on doubles. The
negation and the absolute value of an integer are exact too, and a double only for the least one. -/
theorem promotion_exact :
    Promotes add (fun m n sum => sum = m + n) Binary64.add ∧
    Promotes sub (fun m n difference => difference = m - n) Binary64.sub ∧
    Promotes mul (fun m n product => product = m * n) Binary64.mul ∧
    Promotes div (fun m n quotient => n ≠ 0 ∧ quotient * n = m) Binary64.div ∧
    (∀ x : Int32, (neg (.int x)).IsPromoted (-x.toInt) ∧
      (abs (.int x)).IsPromoted x.toInt.natAbs) ∧
    neg (.int Int32.minValue) = .double ⟨0x41E0000000000000⟩ ∧
    abs (.int Int32.minValue) = .double ⟨0x41E0000000000000⟩ := by
  have total {n result : Int} : some n = some result ↔ result = n := Option.some_inj.trans eq_comm
  exact ⟨promotes_arithmetic total, promotes_arithmetic total, promotes_arithmetic total,
    promotes_arithmetic exactQuotient_eq_some_iff, fun x => ⟨isPromoted_neg x, isPromoted_abs x⟩,
    by decide +kernel, by decide +kernel⟩

/-- The least integer divided by minus one is a double, half of seven is the double 3.5, and the product
that is the least integer fits. -/
theorem promotion_exact_least :
    ¬(div (.int Int32.minValue) (.int (-1))).isInt = true ∧
    (mul (.int 0x10000) (.int (-0x8000))).isInt = true ∧
    (∃ x y : Int32, Value.int (-6) = .int x ∧ Value.int 3 = .int y ∧
      y.toInt ≠ 0 ∧ (-2 : Int32).toInt * y.toInt = x.toInt) ∧
    div (.int 7) (.int 2) = .double ⟨0x400C000000000000⟩ := by
  obtain ⟨-, -, product, quotient, -⟩ := promotion_exact
  refine ⟨?_, ?_, quotient.exact _ _ (-2) (by decide +kernel), ?_⟩
  · rw [quotient.isInt_iff]
    rintro ⟨x, y, result, ⟨⟩, ⟨⟩, ⟨-, exact_result⟩, fits⟩
    have large : result * -1 = -0x80000000 := exact_result
    have high := fits.2
    omega
  · exact (product.isInt_iff _ _).2 ⟨0x10000, -0x8000, -0x80000000, rfl, rfl, by decide, by decide⟩
  · exact (quotient.promoted _ _ (by decide +kernel)).trans (by decide +kernel)

/-! ## Integers and their doubles -/

/-- An integer as a double. -/
def asDouble (x : Int32) : Value := .double (.ofInt x.toInt)

section
variable {exact : Int → Int → Option Int} {rounded : Binary64 → Binary64 → Binary64} {x y : Int32}

theorem ofBinary64_of_isInteger {d : Binary64} {n : Int} (integer : d.IsInteger n) :
    ofBinary64 d = .double d := ofBinary64_of_isNaN integer.finite.isNaN

/-- The doubles of the operands give the double of the integer result. -/
theorem arithmetic_asDouble (extending : Binary64.Extends rounded exact) {result : Int32}
    (integer : arithmetic exact rounded (.int x) (.int y) = .int result) :
    ∃ d, arithmetic exact rounded (asDouble x) (asDouble y) = .double d ∧
      (Binary64.ofInt result.toInt).eq d = true := by
  obtain ⟨_, _, ⟨⟩, ⟨⟩, exact_result⟩ := ints?_eq_some_iff.1 (arithmetic_eq_int_iff.1 integer)
  have same := extending (isInteger_toBinary64 x) (isInteger_toBinary64 y) exact_result
    (natAbs_toInt_lt result)
  exact ⟨_, ofBinary64_of_isInteger same, ((isInteger_toBinary64 result).eq_iff same).2 rfl⟩

/-- An exact result that does not fit 32 bits is exact as a double. -/
theorem isPromoted_arithmetic (extending : Binary64.Extends rounded exact) {n : Int}
    (exact_result : exact x.toInt y.toInt = some n) (small : n.natAbs < Binary64.integerLimit) :
    (arithmetic exact rounded (.int x) (.int y)).IsPromoted n := by
  have promotes := @promotes_arithmetic exact rounded _ Iff.rfl
  by_cases fits : FitsInt32 n
  · refine .inl ⟨Int32.ofInt n, ?_, fits.toInt_ofInt⟩
    rw [← fits.toInt_ofInt] at exact_result
    exact arithmetic_eq_int_iff.2 (ints?_eq_some_iff.2 ⟨x, y, rfl, rfl, exact_result⟩)
  · have noInt : (arithmetic exact rounded (.int x) (.int y)).isInt = false := by
      rw [← Bool.not_eq_true, promotes.isInt_iff]
      rintro ⟨_, _, result, ⟨⟩, ⟨⟩, found, small_enough⟩
      rw [exact_result] at found
      cases found
      exact fits small_enough
    have rounds := extending (isInteger_toBinary64 x) (isInteger_toBinary64 y) exact_result small
    refine .inr ⟨fits, _, ?_, rounds⟩
    rw [promotes.promoted _ _ noInt, ofBinary64_of_isInteger rounds]

end

/-- Computing with integers agrees with computing with their doubles, which are exact. An integer result
is equal to what the doubles of the operands give; a sum or a difference that does not fit 32 bits
is exact as a double; and a comparison does not depend on which operands are doubles. -/
theorem integer_path_agrees (x y : Int32) :
    (Binary64.ofInt x.toInt).IsInteger x.toInt ∧
    (∀ operator ∈ [BinaryOp.add, .sub, .mul, .div], ∀ result : Int32,
      operator.apply (.int x) (.int y) = .int result →
      ∃ d, operator.apply (asDouble x) (asDouble y) = .double d ∧
        (Binary64.ofInt result.toInt).eq d = true) ∧
    (add (.int x) (.int y)).IsPromoted (x.toInt + y.toInt) ∧
    (sub (.int x) (.int y)).IsPromoted (x.toInt - y.toInt) ∧
    ∀ operator ∈ [BinaryOp.eq, .ne, .lt, .le],
      operator.apply (asDouble x) (asDouble y) = operator.apply (.int x) (.int y) ∧
      operator.apply (.int x) (asDouble y) = operator.apply (.int x) (.int y) ∧
      operator.apply (asDouble x) (.int y) = operator.apply (.int x) (.int y) := by
  have small {n : Int} (bounded : n.natAbs ≤ 0x100000000) : n.natAbs < Binary64.integerLimit :=
    Nat.lt_of_le_of_lt bounded (by decide)
  have same (n : Int32) : (asDouble n).toBinary64 = (int n).toBinary64 := rfl
  have lowX := x.le_toInt
  have highX := x.toInt_lt
  have lowY := y.le_toInt
  have highY := y.toInt_lt
  refine ⟨isInteger_toBinary64 x, fun operator arithmetical result integer => ?_,
    isPromoted_arithmetic Binary64.extends_add rfl (small (by omega)),
    isPromoted_arithmetic Binary64.extends_sub rfl (small (by omega)),
    fun operator comparison => ⟨comparison_congr (same x) (same y) comparison,
      comparison_congr rfl (same y) comparison, comparison_congr (same x) rfl comparison⟩⟩
  simp only [List.mem_cons, List.not_mem_nil, or_false] at arithmetical
  rcases arithmetical with rfl | rfl | rfl | rfl
  · exact arithmetic_asDouble Binary64.extends_add integer
  · exact arithmetic_asDouble Binary64.extends_sub integer
  · exact arithmetic_asDouble Binary64.extends_mul integer
  · exact arithmetic_asDouble Binary64.extends_div integer

/-- Zero divided by minus five is the integer zero and, with doubles, the negative zero, which is equal
to it. One below the least integer is exact as a double. -/
theorem integer_path_agrees_zero :
    BinaryOp.div.apply (.int 0) (.int (-5)) = .int 0 ∧
    asDouble 0 = .double (.zero false) ∧
    BinaryOp.div.apply (asDouble 0) (asDouble (-5)) = .double (.zero true) ∧
    (∃ d, BinaryOp.div.apply (asDouble 0) (asDouble (-5)) = .double d ∧
      (Binary64.ofInt (0 : Int32).toInt).eq d = true) ∧
    (sub (.int Int32.minValue) (.int 1)).IsPromoted (Int32.minValue.toInt - (1 : Int32).toInt) ∧
    BinaryOp.lt.apply (asDouble (-5)) (.int 0) = BinaryOp.lt.apply (.int (-5)) (.int 0) := by
  have quotient : BinaryOp.div.apply (.int 0) (.int (-5)) = .int 0 := by decide +kernel
  obtain ⟨-, arithmetical, -⟩ := integer_path_agrees 0 (-5)
  obtain ⟨-, -, -, difference, -⟩ := integer_path_agrees Int32.minValue 1
  obtain ⟨-, -, -, -, comparisons⟩ := integer_path_agrees (-5) 0
  exact ⟨quotient, by decide +kernel, by decide +kernel,
    arithmetical .div (by decide) 0 quotient, difference, (comparisons .lt (by decide)).2.2⟩

end Value
end NodeScript
