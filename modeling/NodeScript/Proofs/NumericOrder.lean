import NodeScript.Proofs.IntegerDoubles

/-!
# The order of values

Two integers are compared as integers and any other two values as doubles. Every 32-bit integer has a
double of its own, so all comparisons are comparisons of doubles, whatever the operands are made of: the
values that are numbers are ordered by what they are worth, and nothing else is equal to or less than
anything. The two operands of `max` and `min` are handed back in that order.
-/
namespace NodeScript.Value

theorem natAbs_toInt_lt (x : Int32) : x.toInt.natAbs < Binary64.integerLimit := by
  have low := x.le_toInt
  have high := x.toInt_lt
  simp only [Binary64.integerLimit, Binary64.exponentWeight]
  omega

theorem isInteger_toBinary64 (x : Int32) : (int x).toBinary64.IsInteger x.toInt :=
  Binary64.isInteger_ofInt (natAbs_toInt_lt x)

/-! ## Comparisons as doubles -/

/-- A comparison of doubles that compares the doubles of integers as the integers does not depend on
which operands are integers. -/
theorem compareWith_eq {ints : Int → Int → Bool} {doubles : Binary64 → Binary64 → Bool}
    (agree : ∀ {x y : Binary64} {m n : Int}, x.IsInteger m → y.IsInteger n →
      (doubles x y = true ↔ ints m n = true)) (a b : Value) :
    compareWith ints doubles a b = doubles a.toBinary64 b.toBinary64 := by
  cases a with
  | int x =>
    cases b with
    | int y =>
      exact Bool.eq_iff_iff.2 (agree (isInteger_toBinary64 x) (isInteger_toBinary64 y)).symm
    | _ => rfl
  | _ => rfl

section
variable (a b : Value)

theorem isEqual_eq : isEqual a b = a.toBinary64.eq b.toBinary64 :=
  compareWith_eq (fun left right => by rw [left.eq_iff right, beq_iff_eq]) a b

theorem isNotEqual_eq : isNotEqual a b = a.toBinary64.ne b.toBinary64 :=
  compareWith_eq (fun left right => by
    rw [Binary64.ne_eq_not_eq, Bool.not_eq_true', ← Bool.not_eq_true, left.eq_iff right,
      bne_iff_ne]) a b

/-- With its comparisons of its own `ne` is the negation of `eq`. -/
theorem isNotEqual_eq_not : isNotEqual a b = !isEqual a b := by
  rw [isNotEqual_eq, isEqual_eq, Binary64.ne_eq_not_eq]

theorem isLess_eq : isLess a b = a.toBinary64.lt b.toBinary64 :=
  compareWith_eq (fun left right => by rw [left.lt_iff right, decide_eq_true_iff]) a b

theorem isLessOrEqual_eq : isLessOrEqual a b = a.toBinary64.le b.toBinary64 :=
  compareWith_eq (fun left right => by rw [left.le_iff right, decide_eq_true_iff]) a b

end

/-- Values that read as the same double compare alike. -/
theorem comparison_congr {a a' b b' : Value} (left : a.toBinary64 = a'.toBinary64)
    (right : b.toBinary64 = b'.toBinary64) {operator : BinaryOp}
    (comparison : operator ∈ [BinaryOp.eq, .ne, .lt, .le]) :
    operator.apply a b = operator.apply a' b' := by
  simp only [List.mem_cons, List.not_mem_nil, or_false] at comparison
  rcases comparison with rfl | rfl | rfl | rfl <;>
    simp only [BinaryOp.apply, eq, ne, lt, le, isEqual_eq, isNotEqual_eq, isLess_eq,
      isLessOrEqual_eq, left, right]

/-- Integers, truth values and doubles that hold no NaN are numbers. -/
def IsNumber : Value → Prop
  | .int _ | .bool _ => True
  | .double number => number.isNaN = false
  | .null | .undefined | .nan | .packetBuffer | .handle _ _ => False

/-- What a number is worth, in units of 2⁻¹⁰⁷⁴. -/
def worth (v : Value) : Int := v.toBinary64.signedUnits

theorem isNaN_toBinary64_eq_false_iff {v : Value} : v.toBinary64.isNaN = false ↔ v.IsNumber := by
  cases v with
  | double number => exact Iff.rfl
  | int x => exact iff_of_true (isInteger_toBinary64 x).finite.isNaN trivial
  | bool truth => exact iff_of_true (Binary64.isNaN_ofNat _) trivial
  | null | undefined | nan | packetBuffer | handle =>
    exact iff_of_false (show ¬Binary64.nan.isNaN = false by decide) id

theorem isNaN_toBinary64_eq_true_iff {v : Value} : v.toBinary64.isNaN = true ↔ ¬v.IsNumber := by
  rw [← isNaN_toBinary64_eq_false_iff, Bool.not_eq_false]

section
variable {a b c : Value}

theorem isEqual_iff : isEqual a b = true ↔ a.IsNumber ∧ b.IsNumber ∧ a.worth = b.worth := by
  rw [isEqual_eq, Binary64.eq_iff, isNaN_toBinary64_eq_false_iff, isNaN_toBinary64_eq_false_iff]
  rfl

theorem isLess_iff : isLess a b = true ↔ a.IsNumber ∧ b.IsNumber ∧ a.worth < b.worth := by
  rw [isLess_eq, Binary64.lt_iff, isNaN_toBinary64_eq_false_iff, isNaN_toBinary64_eq_false_iff]
  rfl

theorem isLessOrEqual_iff :
    isLessOrEqual a b = true ↔ a.IsNumber ∧ b.IsNumber ∧ a.worth ≤ b.worth := by
  rw [isLessOrEqual_eq, Binary64.le_iff, isNaN_toBinary64_eq_false_iff,
    isNaN_toBinary64_eq_false_iff]
  rfl

theorem isLessOrEqual_eq_or : isLessOrEqual a b = (isLess a b || isEqual a b) := by
  rw [Bool.eq_iff_iff, Bool.or_eq_true, isLessOrEqual_iff, isLess_iff, isEqual_iff,
    Int.le_iff_lt_or_eq]
  simp only [and_or_left]

/-- What is no number is equal to nothing, and neither less nor greater than anything. -/
theorem compare_eq_false (missing : ¬a.IsNumber ∨ ¬b.IsNumber) :
    isEqual a b = false ∧ isLess a b = false ∧ isLessOrEqual a b = false := by
  have refuted {p : Prop} : ¬(a.IsNumber ∧ b.IsNumber ∧ p) := fun h =>
    missing.elim (fun left => left h.1) (fun right => right h.2.1)
  simp only [← Bool.not_eq_true, isEqual_iff, isLess_iff, isLessOrEqual_iff]
  exact ⟨refuted, refuted, refuted⟩

/-- Of two numbers one is less than the other or they are equal, and only one of these. -/
theorem compare_trichotomy (left : a.IsNumber) (right : b.IsNumber) :
    isEqual a b = true ∧ isLess a b = false ∧ isLess b a = false ∨
    isEqual a b = false ∧ isLess a b = true ∧ isLess b a = false ∨
    isEqual a b = false ∧ isLess a b = false ∧ isLess b a = true := by
  simp only [← Bool.not_eq_true, isEqual_iff, isLess_iff, left, right, true_and]
  rcases Int.lt_trichotomy a.worth b.worth with less | equal | greater
  · exact .inr (.inl ⟨by omega, less, by omega⟩)
  · exact .inl ⟨equal, by omega, by omega⟩
  · exact .inr (.inr ⟨by omega, by omega, greater⟩)

theorem isEqual_trans (first : isEqual a b = true) (second : isEqual b c = true) :
    isEqual a c = true := by
  rw [isEqual_iff] at first second ⊢
  exact ⟨first.1, second.2.1, first.2.2.trans second.2.2⟩

theorem isLess_trans (first : isLess a b = true) (second : isLess b c = true) :
    isLess a c = true := by
  rw [isLess_iff] at first second ⊢
  exact ⟨first.1, second.2.1, Int.lt_trans first.2.2 second.2.2⟩

theorem isLess_of_isEqual_left (first : isEqual a b = true) (second : isLess b c = true) :
    isLess a c = true := by
  rw [isEqual_iff] at first
  rw [isLess_iff] at second ⊢
  exact ⟨first.1, second.2.1, first.2.2.symm ▸ second.2.2⟩

theorem isLess_of_isEqual_right (first : isLess a b = true) (second : isEqual b c = true) :
    isLess a c = true := by
  rw [isEqual_iff] at second
  rw [isLess_iff] at first ⊢
  exact ⟨first.1, second.2.1, second.2.2 ▸ first.2.2⟩

end

/-- The comparisons are one order, whatever the operands are made of. All four have a truth value; `ne`
is the negation of `eq`, and `le` holds where `lt` or `eq` does. Where an operand reads as a NaN, as all
that is no number does, only `ne` holds; of two other values one is less or they are equal, and only
one of these. Equality is transitive, and so is being less, also with equal values exchanged. -/
theorem comparisons_coherent (a b c : Value) :
    (∃ equal less : Bool, eq a b = .bool equal ∧ ne a b = .bool (!equal) ∧ lt a b = .bool less ∧
      le a b = .bool (less || equal)) ∧
    (a.toBinary64.isNaN = true ↔ ¬a.IsNumber) ∧
    (a.toBinary64.isNaN = true ∨ b.toBinary64.isNaN = true → eq a b = .bool false ∧
      lt a b = .bool false ∧ le a b = .bool false ∧ ne a b = .bool true) ∧
    (a.toBinary64.isNaN = false → b.toBinary64.isNaN = false →
      eq a b = .bool true ∧ lt a b = .bool false ∧ lt b a = .bool false ∨
      eq a b = .bool false ∧ lt a b = .bool true ∧ lt b a = .bool false ∨
      eq a b = .bool false ∧ lt a b = .bool false ∧ lt b a = .bool true) ∧
    (eq a b = .bool true → eq b c = .bool true → eq a c = .bool true) ∧
    (lt a b = .bool true → lt b c = .bool true → lt a c = .bool true) ∧
    (eq a b = .bool true → lt b c = .bool true → lt a c = .bool true) ∧
    (lt a b = .bool true → eq b c = .bool true → lt a c = .bool true) := by
  simp only [eq, ne, lt, le, bool.injEq, isNotEqual_eq_not, isNaN_toBinary64_eq_true_iff,
    isNaN_toBinary64_eq_false_iff]
  refine ⟨⟨_, _, rfl, rfl, rfl, isLessOrEqual_eq_or⟩, trivial, fun missing => ?_,
    compare_trichotomy, isEqual_trans, isLess_trans, isLess_of_isEqual_left,
    isLess_of_isEqual_right⟩
  obtain ⟨equal, less, atMost⟩ := compare_eq_false missing
  exact ⟨equal, less, atMost, by rw [equal]; rfl⟩

/-- The truth value, the integer and the double that stand for one are equal and less than an infinity
or than 1.5; null is not even equal to itself. -/
theorem comparisons_coherent_ones :
    let one : Value := .double ⟨0x3FF0000000000000⟩
    let more : Value := .double ⟨0x3FF8000000000000⟩
    eq (.bool true) (.int 1) = .bool true ∧ eq (.int 1) one = .bool true ∧
      eq (.bool true) one = .bool true ∧
      lt (.int 1) more = .bool true ∧ lt more (.int 2) = .bool true ∧
      lt (.int 1) (.int 2) = .bool true ∧ lt (.bool true) more = .bool true ∧
      lt (.double ⟨0x8000000000000000⟩) (.int 0) = .bool false ∧
      eq .null .null = .bool false := by
  intro one more
  have ones := comparisons_coherent (.bool true) (.int 1) one
  have between := comparisons_coherent (.int 1) more (.int 2)
  have mixed := comparisons_coherent (.bool true) (.int 1) more
  have equal : eq (.bool true) (.int 1) = .bool true := by decide +kernel
  have same : eq (.int 1) one = .bool true := by decide +kernel
  have less : lt (.int 1) more = .bool true := by decide +kernel
  have greater : lt more (.int 2) = .bool true := by decide +kernel
  refine ⟨equal, same, ones.2.2.2.2.1 equal same, less, greater, between.2.2.2.2.2.1 less greater,
    mixed.2.2.2.2.2.2.1 equal less, ?_, ?_⟩
  · decide +kernel
  · exact ((comparisons_coherent .null .null .null).2.2.1 (.inl rfl)).1

/-! ## The larger and the smaller operand -/

section
variable {a b : Value}

theorem max_of_isNumber (left : a.IsNumber) (right : b.IsNumber) :
    max a b = if isLess a b then b else a := by
  rw [← isNaN_toBinary64_eq_false_iff] at left right
  rw [max, left, right]
  rfl

theorem min_of_isNumber (left : a.IsNumber) (right : b.IsNumber) :
    min a b = if isLess a b then a else b := by
  rw [← isNaN_toBinary64_eq_false_iff] at left right
  rw [min, left, right]
  rfl

theorem isLess_self : isLess a a = false := by
  rw [← Bool.not_eq_true, isLess_iff]
  exact fun h => Int.lt_irrefl _ h.2.2

theorem isLess_asymm (less : isLess a b = true) : isLess b a = false := by
  rw [← Bool.not_eq_true, isLess_iff]
  exact fun h => Int.lt_asymm h.2.2 (isLess_iff.1 less).2.2

theorem isLessOrEqual_of_not_isLess (left : a.IsNumber) (right : b.IsNumber)
    (notLess : isLess a b = false) : isLessOrEqual b a = true := by
  rw [← Bool.not_eq_true, isLess_iff] at notLess
  exact isLessOrEqual_iff.2 ⟨right, left, Int.not_lt.1 fun less => notLess ⟨left, right, less⟩⟩

end

/-- `max` and `min` share out their operands. Where one of these reads as a NaN both are `nan`; otherwise
one operand is the smaller and the other is the larger as it was given, also where they are equal and
made differently, and they are in order: neither operand is less than the smaller one or greater than
the larger one. -/
theorem max_min_split (a b : Value) :
    (a.toBinary64.isNaN = true ∨ b.toBinary64.isNaN = true → max a b = .nan ∧ min a b = .nan) ∧
    (a.toBinary64.isNaN = false → b.toBinary64.isNaN = false →
      (min a b = a ∧ max a b = b ∨ min a b = b ∧ max a b = a) ∧
      le (min a b) (max a b) = .bool true ∧
      lt a (min a b) = .bool false ∧ lt b (min a b) = .bool false ∧
      lt (max a b) a = .bool false ∧ lt (max a b) b = .bool false) := by
  simp only [lt, le, bool.injEq, isNaN_toBinary64_eq_false_iff]
  refine ⟨fun missing => ?_, fun left right => ?_⟩
  · have either : (a.toBinary64.isNaN || b.toBinary64.isNaN) = true := by rwa [Bool.or_eq_true]
    rw [max, min, either]
    exact ⟨rfl, rfl⟩
  · rw [max_of_isNumber left right, min_of_isNumber left right]
    cases less : isLess a b with
    | true =>
      have atMost : isLessOrEqual a b = true := by rw [isLessOrEqual_eq_or, less, Bool.true_or]
      exact ⟨.inl ⟨rfl, rfl⟩, atMost, isLess_self, isLess_asymm less, isLess_asymm less, isLess_self⟩
    | false =>
      have atMost := isLessOrEqual_of_not_isLess left right less
      exact ⟨.inr ⟨rfl, rfl⟩, atMost, less, isLess_self, isLess_self, less⟩

/-- Operands that are equal but not the same are both handed back, whichever comes first. -/
theorem max_min_split_ties :
    (min (.bool true) (.int 1) = .bool true ∧ max (.bool true) (.int 1) = .int 1 ∨
      min (.bool true) (.int 1) = .int 1 ∧ max (.bool true) (.int 1) = .bool true) ∧
    le (min (.int 2) (.int 1)) (max (.int 2) (.int 1)) = .bool true ∧
    max (.int 5) .undefined = .nan ∧ min (.int 5) .undefined = .nan := by
  have numbers {n : Int32} : (int n).toBinary64.isNaN = false :=
    (isInteger_toBinary64 n).finite.isNaN
  exact ⟨((max_min_split (.bool true) (.int 1)).2 (Binary64.isNaN_ofNat 1) numbers).1,
    ((max_min_split (.int 2) (.int 1)).2 numbers numbers).2.1,
    (max_min_split (.int 5) .undefined).1 (.inr rfl)⟩

end NodeScript.Value
