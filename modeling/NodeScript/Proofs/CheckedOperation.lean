import NodeScript.Handler
import NodeScript.Operand
import NodeScript.Proofs.FittingInteger

/-!
# Checked operations

Operations of a machine are partial: a result may not fit its word, a divisor may be zero, a shift may
be too far and a position may lie outside of its array. Here such operations trap where they are
undefined, and the operators, the number formats and the buffers are put together from them, with the
guards where the machine has them. No operand makes any of them trap.
-/
namespace NodeScript

/-- Why an operation is undefined. -/
inductive Trap where
  | overflow | divisionByZero | outOfBounds
  /-- The code was not meant to get here. -/
  | unreachable
  deriving DecidableEq

/-- The result of operations that may trap. -/
abbrev Checked := Except Trap

/-- Positions and counters are less than this. -/
abbrev wordSize : Nat := 0x10000000000000000

namespace Checked

/-- A position or a counter that was computed. -/
def word (n : Nat) : Checked Nat := if n < wordSize then .ok n else .error .overflow

/-- A difference of positions or counters. -/
def difference (m n : Nat) : Checked Nat := if n ≤ m then .ok (m - n) else .error .overflow

/-- A 32-bit integer that was computed. -/
def int32 (n : Int) : Checked Int32 :=
  if -0x80000000 ≤ n ∧ n < 0x80000000 then .ok (Int32.ofInt n) else .error .overflow

/-- The quotient of two integers. Besides division by zero it has one quotient that is too large. -/
def quotient (x y : Int32) : Checked Int32 :=
  if y = 0 then .error .divisionByZero else int32 (x.toInt.tdiv y.toInt)

/-- The quotient of two integers where the one that is too large wraps around. -/
def wrappingQuotient (x y : Int32) : Checked Int32 :=
  if y = 0 then .error .divisionByZero else .ok (x / y)

/-- How far to shift a word of so many bits. -/
def shiftAmount (width amount : Nat) : Checked Nat :=
  if amount < width then .ok amount else .error .overflow

def entry (bytes : Bytes) (position : Nat) : Checked UInt8 :=
  match bytes[position]? with
  | some byte => .ok byte
  | none => .error .outOfBounds

/-- The bytes from `start` to `stop`. -/
def slice (bytes : Bytes) (start stop : Nat) : Checked Bytes :=
  if start ≤ stop ∧ stop ≤ bytes.length then .ok ((bytes.drop start).take (stop - start))
  else .error .outOfBounds

@[simp] theorem ok_bind {α β : Type} (a : α) (f : α → Checked β) :
    (Except.ok a : Checked α) >>= f = f a := rfl

theorem word_ok {n : Nat} (fits : n < wordSize) : word n = .ok n := if_pos fits

theorem difference_ok {m n : Nat} (le : n ≤ m) : difference m n = .ok (m - n) := if_pos le

theorem int32_ok {n : Int} (low : -0x80000000 ≤ n) (high : n < 0x80000000) :
    int32 n = .ok (Int32.ofInt n) := if_pos ⟨low, high⟩

theorem quotient_ok {x y : Int32} (divisor : y ≠ 0) (low : -0x80000000 ≤ x.toInt.tdiv y.toInt)
    (high : x.toInt.tdiv y.toInt < 0x80000000) :
    quotient x y = .ok (Int32.ofInt (x.toInt.tdiv y.toInt)) := by
  rw [quotient, if_neg divisor, int32_ok low high]

theorem wrappingQuotient_ok {x y : Int32} (divisor : y ≠ 0) : wrappingQuotient x y = .ok (x / y) :=
  if_neg divisor

theorem shiftAmount_ok {width amount : Nat} (short : amount < width) :
    shiftAmount width amount = .ok amount := if_pos short

theorem entry_ok {bytes : Bytes} {position : Nat} (inside : position < bytes.length) :
    entry bytes position = .ok bytes[position] := by
  rw [entry, List.getElem?_eq_getElem inside]

theorem slice_ok {bytes : Bytes} {start stop : Nat} (order : start ≤ stop)
    (inside : stop ≤ bytes.length) :
    slice bytes start stop = .ok ((bytes.drop start).take (stop - start)) := if_pos ⟨order, inside⟩

/-- The first entries one by one. -/
theorem entries_ok {bytes : Bytes} {count : Nat} (inside : count ≤ bytes.length) :
    (List.range count).mapM (entry bytes) = .ok (bytes.take count) := by
  induction count with
  | zero => rfl
  | succ count ih =>
    rw [List.range_succ, List.mapM_append, ih (by omega), List.take_succ_eq_append_getElem inside]
    simp only [List.mapM_cons, entry_ok inside]
    rfl

end Checked

open Checked

/-! ## Operators -/

namespace Value

/-- The remainder of two integers, if it has a quotient. -/
def remainder? (x y : Int32) : Option Int32 :=
  if y = 0 ∨ (x = Int32.minValue ∧ y = -1) then none else some (x % y)

/-- Divides integers only after their remainder. -/
def checkedDiv : Value → Value → Checked Value
  | .int x, .int y =>
    if remainder? x y = some 0 then .int <$> quotient x y
    else .ok (.ofBinary64 ((int x).toBinary64.div (int y).toBinary64))
  | a, b => .ok (.ofBinary64 (a.toBinary64.div b.toBinary64))

def checkedIdiv (a b : Value) : Checked Value :=
  if b.toInt32 = 0 then .ok (.int 0) else .int <$> wrappingQuotient a.toInt32 b.toInt32

def checkedShiftRight (a b : Value) : Checked Value := do
  let amount ← shiftAmount 32 (b.toInt32 &&& 31).toUInt32.toNat
  .ok (.int (a.toInt32 >>> Int32.ofNat amount))

def checkedShiftRightUnsigned (a b : Value) : Checked Value := do
  let amount ← shiftAmount 32 (b.toInt32 &&& 31).toUInt32.toNat
  let result := a.toInt32.toUInt32 >>> UInt32.ofNat amount
  .ok (if result < 0x80000000 then .int result.toInt32 else .double (.ofNat result.toNat))

def checkedNeg : Value → Checked Value
  | .int x =>
    if x = Int32.minValue then .ok (.double (.ofNat 0x80000000)) else .int <$> int32 (-x.toInt)
  | v => .ok (.ofBinary64 v.toBinary64.neg)

def checkedAbs : Value → Checked Value
  | .int x =>
    if x = Int32.minValue then .ok (.double (.ofNat 0x80000000)) else .int <$> int32 x.toInt.natAbs
  | v => .ok (if v.toBinary64.lt (.zero false) then .ofBinary64 v.toBinary64.neg else v)

end Value

/-- The other operators have no partial operations. -/
def UnaryOp.checkedApply : UnaryOp → Value → Checked Value
  | .abs, v => v.checkedAbs
  | .neg, v => v.checkedNeg
  | operator, v => .ok (operator.apply v)

/-- The other operators have no partial operations: sums, differences and products of integers are
given up where they do not fit, and bit operators wrap around. -/
def BinaryOp.checkedApply : BinaryOp → Value → Value → Checked Value
  | .div, a, b => a.checkedDiv b
  | .idiv, a, b => a.checkedIdiv b
  | .shiftRight, a, b => a.checkedShiftRight b
  | .shiftRightUnsigned, a, b => a.checkedShiftRightUnsigned b
  | operator, a, b => .ok (operator.apply a b)

namespace Checked

theorem int32_toInt (x : Int32) : int32 x.toInt = .ok x := by
  rw [int32_ok x.le_toInt x.toInt_lt, Int32.ofInt_toInt]

section
variable {x : Int32} (other : x ≠ Int32.minValue)
include other

theorem int32_neg_ok : int32 (-x.toInt) = .ok (-x) := by
  rw [← toInt_neg_of_ne_least other, int32_toInt]

theorem int32_natAbs_ok : int32 x.toInt.natAbs = .ok (if x < 0 then -x else x) := by
  rw [← toInt_abs_of_ne_least other, int32_toInt]

end

end Checked

namespace Value

theorem remainder?_eq_zero {x y : Int32} (h : remainder? x y = some 0) :
    y ≠ 0 ∧ ¬(x = Int32.minValue ∧ y = -1) ∧ x.toInt.tmod y.toInt = 0 := by
  rw [remainder?] at h
  split at h
  · cases h
  · next guarded =>
    have exact := congrArg Int32.toInt (Option.some.inj h)
    rw [Int32.toInt_mod] at exact
    exact ⟨fun zero => guarded (.inl zero), fun large => guarded (.inr large), exact⟩

theorem remainder?_of_divides {x y : Int32} (divisor : y ≠ 0)
    (small : ¬(x = Int32.minValue ∧ y = -1)) (divides : x.toInt.tmod y.toInt = 0) :
    remainder? x y = some 0 := by
  rw [remainder?, if_neg (not_or.2 ⟨divisor, small⟩)]
  refine congrArg some (Int32.toInt_inj.1 ?_)
  rw [Int32.toInt_mod, divides]
  rfl

theorem checkedNeg_eq (v : Value) : v.checkedNeg = .ok v.neg := by
  cases v with
  | int x =>
    simp only [checkedNeg, neg]
    split
    · rfl
    · next other => rw [int32_neg_ok other]; rfl
  | _ => rfl

theorem checkedAbs_eq (v : Value) : v.checkedAbs = .ok v.abs := by
  cases v with
  | int x =>
    simp only [checkedAbs, abs]
    split
    · rfl
    · next other => rw [int32_natAbs_ok other]; rfl
  | _ => rfl

theorem checkedIdiv_eq (a b : Value) : a.checkedIdiv b = .ok (a.idiv b) := by
  rw [checkedIdiv, idiv]
  split
  · rfl
  · next divisor => rw [wrappingQuotient_ok divisor]; rfl

/-- The quotients that are integers are those of an exact division, but for the one too large. -/
theorem ints?_div (x y : Int32) :
    ints? (fun x y => if y ≠ 0 ∧ x.tmod y = 0 then some (x.tdiv y) else none) (int x) (int y) =
      if remainder? x y = some 0 then some (Int32.ofInt (x.toInt.tdiv y.toInt)) else none := by
  simp only [ints?]
  by_cases exact_division : y.toInt ≠ 0 ∧ x.toInt.tmod y.toInt = 0
  · obtain ⟨nonzero, divides⟩ := exact_division
    have divisor : y ≠ 0 := fun zero => nonzero (congrArg Int32.toInt zero)
    rw [if_pos ⟨nonzero, divides⟩]
    by_cases small : x = Int32.minValue ∧ y = -1
    · obtain ⟨rfl, rfl⟩ := small
      rfl
    · rw [if_pos (remainder?_of_divides divisor small divides)]
      exact if_pos (fitsInt32_tdiv small)
  · have guarded : remainder? x y ≠ some 0 := fun same => by
      obtain ⟨divisor, -, divides⟩ := remainder?_eq_zero same
      exact exact_division ⟨fun zero => divisor (Int32.toInt_inj.1 zero), divides⟩
    rw [if_neg exact_division, if_neg guarded]
    rfl

theorem checkedDiv_eq (a b : Value) : a.checkedDiv b = .ok (a.div b) := by
  rw [div, arithmetic]
  cases a with
  | int x =>
    cases b with
    | int y =>
      rw [checkedDiv, ints?_div]
      split
      · next guarded =>
        obtain ⟨divisor, small, -⟩ := remainder?_eq_zero guarded
        obtain ⟨low, high⟩ := fitsInt32_tdiv small
        rw [quotient_ok divisor low high]
        rfl
      · rfl
    | _ => rfl
  | _ => rfl

theorem shiftAmount_low_bits (n : Int32) :
    shiftAmount 32 (n &&& 31).toUInt32.toNat = .ok (n.toUInt32.toNat % 32) := by
  have low : (n &&& 31).toUInt32.toNat = n.toUInt32.toNat % 32 := by
    rw [Int32.toUInt32_and, UInt32.toNat_and]
    exact Nat.and_two_pow_sub_one_eq_mod _ 5
  rw [low, shiftAmount_ok (Nat.mod_lt _ (by decide))]

theorem smod_eq_low_bits (n : BitVec 32) : n.smod 32 = BitVec.ofNat 32 (n.toNat % 32) := by
  refine BitVec.toInt_inj.1 ?_
  have width : (32 : BitVec 32).toInt = 32 := rfl
  rw [BitVec.toInt_smod, width, Int.fmod_eq_emod_of_nonneg _ (by decide)]
  simp only [BitVec.toInt_eq_toNat_cond, BitVec.toNat_ofNat]
  split <;> split <;> omega

/-- Shifting by the amount in the low bits is shifting by the whole operand. -/
theorem shiftRight_low_bits (x n : Int32) :
    x >>> Int32.ofNat (n.toUInt32.toNat % 32) = x >>> n := by
  refine Int32.toBitVec_inj.1 ?_
  rw [Int32.toBitVec_shiftRight, Int32.toBitVec_shiftRight]
  have amount : (Int32.ofNat (n.toUInt32.toNat % 32)).toBitVec =
      BitVec.ofNat 32 (n.toBitVec.toNat % 32) := rfl
  have short : n.toBitVec.toNat % 32 % 0x100000000 % 32 = n.toBitVec.toNat % 32 := by omega
  rw [amount, smod_eq_low_bits, smod_eq_low_bits, BitVec.toNat_ofNat]
  exact congrArg (fun amount => x.toBitVec.sshiftRight' (BitVec.ofNat 32 amount)) short

theorem shiftRightUnsigned_low_bits (x n : UInt32) : x >>> UInt32.ofNat (n.toNat % 32) = x >>> n := by
  refine UInt32.toNat_inj.1 ?_
  rw [UInt32.toNat_shiftRight, UInt32.toNat_shiftRight, UInt32.toNat_ofNat']
  congr 1
  omega

theorem checkedShiftRight_eq (a b : Value) : a.checkedShiftRight b = .ok (a.shiftRight b) := by
  rw [checkedShiftRight, shiftAmount_low_bits, shiftRight, ← shiftRight_low_bits]
  rfl

theorem checkedShiftRightUnsigned_eq (a b : Value) :
    a.checkedShiftRightUnsigned b = .ok (a.shiftRightUnsigned b) := by
  rw [checkedShiftRightUnsigned, shiftAmount_low_bits, shiftRightUnsigned,
    ← shiftRightUnsigned_low_bits]
  rfl

end Value

/-- No value makes a unary operator trap. -/
theorem UnaryOp.checkedApply_eq (operator : UnaryOp) (v : Value) :
    operator.checkedApply v = .ok (operator.apply v) := by
  cases operator with
  | abs => exact v.checkedAbs_eq
  | neg => exact v.checkedNeg_eq
  | _ => rfl

/-- No values make a binary operator trap. -/
theorem BinaryOp.checkedApply_eq (operator : BinaryOp) (a b : Value) :
    operator.checkedApply a b = .ok (operator.apply a b) := by
  cases operator with
  | div => exact a.checkedDiv_eq b
  | idiv => exact a.checkedIdiv_eq b
  | shiftRight => exact a.checkedShiftRight_eq b
  | shiftRightUnsigned => exact a.checkedShiftRightUnsigned_eq b
  | _ => rfl

/-- Without the guard before it, this quotient traps. -/
example : quotient Int32.minValue (-1) = .error .overflow := rfl

/-! ## Number formats -/

/-- The number of bytes, by a shift. -/
def NumberKind.checkedBytes (kind : NumberKind) : Checked Nat := do
  let amount ← shiftAmount 64 kind.logBytes
  .ok (1 <<< amount)

/-- Two to the `exponent`, with the exponent biased as an integer. -/
def Binary64.checkedTwoPow (exponent : Int32) : Checked Binary64 := do
  let biased ← int32 (1023 + exponent.toInt)
  .ok ⟨UInt64.ofNat ((biased.toInt % 4096).toNat * exponentWeight)⟩

namespace NumberFormat

/-- The number of bits that the shift is compared with is computed. -/
def checkedNew (kind : NumberKind) (shift : Nat) :
    Checked (Except NumberFormatError NumberFormat) := do
  let bytes ← kind.checkedBytes
  let _ ← word (bytes * 8)
  .ok (new kind shift)

def checkedOfByte (byte : UInt8) : Checked (Except NumberFormatError NumberFormat) :=
  match NumberKind.ofCode? (byte.toNat % 16) with
  | some kind => checkedNew kind (byte.toNat / 16)
  | none => .ok (.error (.unsupportedKind (byte.toNat % 16)))

def checkedOfNat (number : Nat) : Checked (Except NumberFormatError NumberFormat) :=
  if number < 256 then checkedOfByte (UInt8.ofNat number) else .ok (.error (.outOfRange number))

end NumberFormat

namespace NumberKind

/-- The value that the bytes spell, scaled by the shift. -/
def checkedDecode (kind : NumberKind) (shift : Nat) (spelled : Bytes) : Checked Value :=
  if shift = 0 then
    match kind.int? spelled with
    | some number => .ok (.int number)
    | none => .ok (.ofBinary64 (kind.number spelled))
  else do
    let exponent ← int32 (-shift)
    let factor ← Binary64.checkedTwoPow exponent
    .ok (.ofBinary64 ((kind.number spelled).mul factor))

/-- Reads a number of any kind with any shift, whether a format has them or not. The end of the number
is computed where it fits a word, and the number's bytes are taken out one by one. -/
def checkedRead (kind : NumberKind) (shift : Nat) (data : Bytes) (offset : Nat) : Checked Value := do
  let size ← kind.checkedBytes
  if offset + size < wordSize ∧ offset + size ≤ data.length then
    let source ← slice data offset (offset + size)
    if kind.isReadable then
      let spelled ← (List.range size).mapM (entry source)
      kind.checkedDecode shift spelled
    else .error .unreachable
  else .ok .nan

theorem bytes_le (kind : NumberKind) : kind.bytes ≤ 8 := by
  rw [bytes]
  generalize kind.logBytes = logBytes
  revert logBytes
  decide

theorem checkedBytes_eq (kind : NumberKind) : kind.checkedBytes = .ok kind.bytes := by
  rw [checkedBytes, shiftAmount_ok (Nat.lt_trans kind.logBytes.isLt (by decide))]
  rfl

end NumberKind

theorem Binary64.checkedTwoPow_eq {exponent : Int32} (low : -0x80000000 ≤ 1023 + exponent.toInt)
    (high : 1023 + exponent.toInt < 0x80000000) : checkedTwoPow exponent = .ok (twoPow exponent) := by
  have biased : (Int32.ofInt (1023 + exponent.toInt)).toInt = 1023 + exponent.toInt :=
    Int32.toInt_ofInt_of_le low high
  simp only [checkedTwoPow, int32_ok low high, ok_bind, biased, twoPow]

namespace NumberFormat

theorem checkedNew_eq (kind : NumberKind) (shift : Nat) :
    checkedNew kind shift = .ok (new kind shift) := by
  have few : kind.bytes * 8 < wordSize :=
    Nat.lt_of_le_of_lt (Nat.mul_le_mul_right 8 kind.bytes_le) (by decide)
  rw [checkedNew, kind.checkedBytes_eq]
  exact congrArg (· >>= fun _ => .ok (new kind shift)) (word_ok few)

theorem checkedOfNat_eq (number : Nat) : checkedOfNat number = .ok (ofNat number) := by
  rw [checkedOfNat, ofNat]
  split
  · rw [checkedOfByte, ofByte]
    cases NumberKind.ofCode? ((UInt8.ofNat number).toNat % 16) with
    | some kind => exact checkedNew_eq kind _
    | none => rfl
  · rfl

/-- A format's shift leaves the biased exponent in its range. -/
theorem checkedDecode_eq (format : NumberFormat) (spelled : Bytes) :
    format.kind.checkedDecode format.shift spelled = .ok (format.decode spelled) := by
  have small := format.shift_lt_sixteen
  rw [NumberKind.checkedDecode, decode]
  split
  · cases format.kind.int? spelled <;> rfl
  · have negated : (Int32.ofInt (-format.shift)).toInt = -format.shift :=
      Int32.toInt_ofInt_of_le (by omega) (by omega)
    rw [int32_ok (by omega) (by omega), ← Int32.ofInt_eq_ofNat, ← Int32.ofInt_neg, ok_bind,
      Binary64.checkedTwoPow_eq (by omega) (by omega)]
    rfl

/-- A format's kind is readable, and its bytes are looked for inside the data only. -/
theorem checkedRead_eq (format : NumberFormat) {data : Bytes} {offset : Nat}
    (addressed : offset + format.kind.bytes < wordSize ∨ data.length < wordSize) :
    format.kind.checkedRead format.shift data offset = .ok (format.read data offset) := by
  rw [NumberKind.checkedRead, format.kind.checkedBytes_eq, ok_bind, read]
  by_cases inside : offset + format.kind.bytes ≤ data.length
  · have fits : offset + format.kind.bytes < wordSize := addressed.elim id (Nat.lt_of_le_of_lt inside)
    have length : ((data.drop offset).take (offset + format.kind.bytes - offset)).length =
        format.kind.bytes := by
      rw [List.length_take, List.length_drop]
      omega
    rw [if_pos inside, if_pos ⟨fits, inside⟩, slice_ok (Nat.le_add_right _ _) inside, ok_bind,
      if_pos format.kind_readable, entries_ok (Nat.le_of_eq length.symm), ok_bind, checkedDecode_eq,
      List.take_of_length_le (Nat.le_of_eq length), Nat.add_sub_cancel_left]
  · rw [if_neg inside, if_neg fun both => inside both.2]

/-- No format has this kind. -/
example : NumberKind.checkedRead ⟨.float, 1⟩ 0 [0, 0] 0 = .error .unreachable := rfl

end NumberFormat

/-! ## Buffers -/

/-- What is both declared and stored is cut off. -/
def Packet.checkedPayload (packet : Packet) : Checked Bytes :=
  slice packet.data 0 (min packet.serviceSize.toNat packet.data.length)

def World.checkedBytes? (world : World) : Value → Checked (Option Bytes)
  | .packetBuffer => some <$> world.packet.checkedPayload
  | .handle .imageBuffer index => .ok (world.image.string? index)
  | _ => .ok none

theorem Packet.checkedPayload_eq (packet : Packet) : packet.checkedPayload = .ok packet.payload := by
  rw [checkedPayload, slice_ok (Nat.zero_le _) (Nat.min_le_right _ _), payload, List.drop_zero,
    Nat.sub_zero]
  refine congrArg _ (List.take_eq_take_iff.2 ?_)
  omega

theorem World.checkedBytes?_eq (world : World) (v : Value) :
    world.checkedBytes? v = .ok (world.bytes? v) := by
  cases v with
  | packetBuffer =>
    rw [checkedBytes?, Packet.checkedPayload_eq]
    rfl
  | handle kind index => cases kind <;> rfl
  | _ => rfl

/-- The value of a compact literal byte, by an integer difference. -/
def checkedCompactValue (byte : UInt8) : Checked Int32 :=
  int32 ((byte - compactBase).toNat - compactBias)

theorem checkedCompactValue_eq (byte : UInt8) :
    checkedCompactValue byte = .ok (compactValue byte) := by
  have small := (byte - compactBase).toNat_lt
  have bias : (compactBias : Int) = 16 := rfl
  exact int32_ok (by omega) (by omega)

end NodeScript
