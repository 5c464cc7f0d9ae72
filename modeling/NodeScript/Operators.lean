import NodeScript.Value

/-!
# Operators on values

Sums, differences, products and quotients of two integers are integers while the exact result is one
that fits 32 bits; otherwise both operands are read as doubles. The bit operators read their operands
as 32-bit integers. Comparisons compare integers as integers and everything else as doubles.
-/
namespace NodeScript
namespace Value

/-- The integer result of an operator on two integers, when it has one. -/
def ints? (operator : Int → Int → Option Int) : Value → Value → Option Int32
  | .int x, .int y => do
    let result ← operator x.toInt y.toInt
    if -0x80000000 ≤ result ∧ result < 0x80000000 then some (Int32.ofInt result) else none
  | _, _ => none

/-- Tries the integers first and computes with doubles where they have no result. -/
def arithmetic (exact : Int → Int → Option Int) (rounded : Binary64 → Binary64 → Binary64)
    (a b : Value) : Value :=
  match ints? exact a b with
  | some result => .int result
  | none => ofBinary64 (rounded a.toBinary64 b.toBinary64)

def add : Value → Value → Value := arithmetic (fun x y => some (x + y)) Binary64.add

def sub : Value → Value → Value := arithmetic (fun x y => some (x - y)) Binary64.sub

def mul : Value → Value → Value := arithmetic (fun x y => some (x * y)) Binary64.mul

/-- A quotient of integers is an integer only if it is exact. -/
def div : Value → Value → Value :=
  arithmetic (fun x y => if y ≠ 0 ∧ x.tmod y = 0 then some (x.tdiv y) else none) Binary64.div

def pow (a b : Value) : Value := ofBinary64 (a.toBinary64.pow b.toBinary64)

def bitAnd (a b : Value) : Value := .int (a.toInt32 &&& b.toInt32)

def bitOr (a b : Value) : Value := .int (a.toInt32 ||| b.toInt32)

def bitXor (a b : Value) : Value := .int (a.toInt32 ^^^ b.toInt32)

/-- Shifts go as far as the five low bits of the right operand say. -/
def shiftLeft (a b : Value) : Value := .int (a.toInt32 <<< b.toInt32)

/-- Shifts in copies of the sign. -/
def shiftRight (a b : Value) : Value := .int (a.toInt32 >>> b.toInt32)

/-- Shifts in zeros. A result with the top bit set is no 32-bit integer and becomes a double. -/
def shiftRightUnsigned (a b : Value) : Value :=
  let result := a.toInt32.toUInt32 >>> b.toInt32.toUInt32
  if result < 0x80000000 then .int result.toInt32 else .double (.ofNat result.toNat)

/-- Integer quotient, rounded toward zero. Division by zero gives zero, and the one quotient that is
too large wraps around. -/
def idiv (a b : Value) : Value :=
  if b.toInt32 = 0 then .int 0 else .int (a.toInt32 / b.toInt32)

/-- The low 32 bits of the product. -/
def imul (a b : Value) : Value := .int (a.toInt32 * b.toInt32)

/-- Compares two integers as integers and any other two values as doubles. -/
def compareWith (ints : Int → Int → Bool) (doubles : Binary64 → Binary64 → Bool) :
    Value → Value → Bool
  | .int x, .int y => ints x.toInt y.toInt
  | a, b => doubles a.toBinary64 b.toBinary64

def isEqual : Value → Value → Bool := compareWith (· == ·) Binary64.eq

def isNotEqual : Value → Value → Bool := compareWith (· != ·) Binary64.ne

def isLess : Value → Value → Bool := compareWith (fun x y => decide (x < y)) Binary64.lt

def isLessOrEqual : Value → Value → Bool := compareWith (fun x y => decide (x ≤ y)) Binary64.le

def eq (a b : Value) : Value := .bool (isEqual a b)

def ne (a b : Value) : Value := .bool (isNotEqual a b)

def lt (a b : Value) : Value := .bool (isLess a b)

def le (a b : Value) : Value := .bool (isLessOrEqual a b)

/-- The larger operand as it was given, the left one of two that are equal. -/
def max (a b : Value) : Value :=
  if a.toBinary64.isNaN || b.toBinary64.isNaN then .nan else if isLess a b then b else a

/-- The smaller operand as it was given, the right one of two that are equal. -/
def min (a b : Value) : Value :=
  if a.toBinary64.isNaN || b.toBinary64.isNaN then .nan else if isLess a b then a else b

/-- The negation of the least integer is a double. -/
def neg : Value → Value
  | .int x => if x = Int32.minValue then .double (.ofNat 0x80000000) else .int (-x)
  | v => ofBinary64 v.toBinary64.neg

/-- What is no integer changes only if it is negative. -/
def abs : Value → Value
  | .int x =>
    if x = Int32.minValue then .double (.ofNat 0x80000000) else .int (if x < 0 then -x else x)
  | v => if v.toBinary64.lt (.zero false) then ofBinary64 v.toBinary64.neg else v

/-- Integers are left alone by the roundings to an integer. -/
def roundingWith (rounding : Binary64 → Binary64) : Value → Value
  | .int x => .int x
  | v => ofBinary64 (rounding v.toBinary64)

def ceil : Value → Value := roundingWith Binary64.ceil

def floor : Value → Value := roundingWith Binary64.floor

def round : Value → Value := roundingWith Binary64.round

def bitNot (v : Value) : Value := .int (~~~v.toInt32)

/-- The negated truth value as an integer. -/
def not (v : Value) : Value := .int (if v.toBool then 0 else 1)

def logE (v : Value) : Value := ofBinary64 v.toBinary64.ln

end Value

inductive UnaryOp where
  | abs | bitNot | ceil | floor | round | identity | isNaN | logE | neg | not | toBool | isNull
  deriving DecidableEq

def UnaryOp.apply : UnaryOp → Value → Value
  | .abs, v => v.abs
  | .bitNot, v => v.bitNot
  | .ceil, v => v.ceil
  | .floor, v => v.floor
  | .round, v => v.round
  | .identity, v => v
  | .isNaN, v => .bool v.isNaN
  | .logE, v => v.logE
  | .neg, v => v.neg
  | .not, v => v.not
  | .toBool, v => .bool v.toBool
  | .isNull, v => .bool (v = .null)

inductive BinaryOp where
  | add | sub | mul | div | pow
  | bitAnd | bitOr | bitXor | shiftLeft | shiftRight | shiftRightUnsigned
  | idiv | imul | eq | le | lt | ne | max | min
  deriving DecidableEq

def BinaryOp.apply : BinaryOp → Value → Value → Value
  | .add => Value.add
  | .sub => Value.sub
  | .mul => Value.mul
  | .div => Value.div
  | .pow => Value.pow
  | .bitAnd => Value.bitAnd
  | .bitOr => Value.bitOr
  | .bitXor => Value.bitXor
  | .shiftLeft => Value.shiftLeft
  | .shiftRight => Value.shiftRight
  | .shiftRightUnsigned => Value.shiftRightUnsigned
  | .idiv => Value.idiv
  | .imul => Value.imul
  | .eq => Value.eq
  | .le => Value.le
  | .lt => Value.lt
  | .ne => Value.ne
  | .max => Value.max
  | .min => Value.min

end NodeScript
