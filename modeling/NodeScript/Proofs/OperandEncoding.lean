import NodeScript.Assembler

/-!
# The encodings in expression code

How far an immediate operand reaches is said by its head byte alone. Reading takes exactly the bytes
that an operand reaches over, and gives back what was written; compact literals and opcode bytes are
read back as well, and no byte is both.
-/
namespace NodeScript
namespace Operand

section
variable {head : UInt8} {rest : Bytes}

theorem read?_short (short : head.toNat < firstHead) :
    read? (head :: rest) = some (Int32.ofNat head.toNat, rest) := if_pos short

theorem read?_long (long : ¬head.toNat < firstHead) (enough : magnitudeLength head ≤ rest.length) :
    read? (head :: rest) = some
      (let n := Int32.ofNat (Bytes.bigEndian (rest.take (magnitudeLength head)))
      if negates head then -n else n, rest.drop (magnitudeLength head)) := by
  have length : (rest.take (magnitudeLength head)).length = magnitudeLength head :=
    List.length_take_of_le enough
  simp only [read?, if_neg long, length, Nat.lt_irrefl, if_false]

theorem read?_truncated (long : ¬head.toNat < firstHead) (few : rest.length < magnitudeLength head) :
    read? (head :: rest) = none := by
  simp only [read?, if_neg long]
  refine if_pos ?_
  rw [List.length_take]
  omega

end

/-- The number of bytes of the operand with this head. -/
def size (head : UInt8) : Nat := if head.toNat < firstHead then 1 else 1 + magnitudeLength head

/-- The code starts with a complete operand and goes on with `rest`. -/
def Spans (code rest : Bytes) : Prop :=
  ∃ head magnitude, code = head :: (magnitude ++ rest) ∧ 1 + magnitude.length = size head

theorem spans_of_read? {code rest : Bytes} {n : Int32} (h : read? code = some (n, rest)) :
    Spans code rest := by
  cases code with
  | nil => simp [read?] at h
  | cons head tail =>
    simp only [read?] at h
    split at h
    · next short =>
      obtain ⟨-, rfl⟩ := Prod.mk.inj (Option.some.inj h)
      exact ⟨head, [], rfl, by simp [size, short]⟩
    · next long =>
      split at h
      · simp at h
      · next enough =>
        obtain ⟨-, rfl⟩ := Prod.mk.inj (Option.some.inj h)
        refine ⟨head, tail.take (magnitudeLength head), by rw [List.take_append_drop], ?_⟩
        simp only [List.length_take] at enough ⊢
        simp only [size, if_neg long]
        omega

theorem Spans.exists_read? {code rest : Bytes} (h : Spans code rest) :
    ∃ n, read? code = some (n, rest) := by
  obtain ⟨head, magnitude, rfl, length⟩ := h
  rw [size] at length
  simp only [read?]
  split at length
  · next short =>
    obtain rfl : magnitude = [] := List.length_eq_zero_iff.1 (by omega)
    exact ⟨_, if_pos short⟩
  · next long =>
    have exact_length : magnitude.length = magnitudeLength head := by omega
    rw [if_neg long, List.take_left' exact_length, List.drop_left' exact_length,
      if_neg (by omega)]
    exact ⟨_, rfl⟩

/-- Code that ends inside an operand cannot be read. -/
theorem Spans.read?_take {code rest : Bytes} (h : Spans code rest) {cut : Nat}
    (inside : cut + rest.length < code.length) : read? (code.take cut) = none := by
  obtain ⟨head, magnitude, rfl, length⟩ := h
  cases cut with
  | zero => rfl
  | succ cut =>
    simp only [List.length_cons, List.length_append] at inside
    have long : ¬head.toNat < firstHead := by
      intro short
      rw [size, if_pos short] at length
      omega
    rw [size, if_neg long] at length
    apply read?_truncated long
    rw [List.length_take]
    omega

/-- What an operand reads as is said by its own bytes, whatever follows them. -/
theorem read?_append {code rest : Bytes} {n : Int32} (h : read? code = some (n, rest)) :
    ∃ taken, code = taken ++ rest ∧ ∀ other, read? (taken ++ other) = some (n, other) := by
  obtain ⟨head, magnitude, rfl, length⟩ := spans_of_read? h
  refine ⟨head :: magnitude, rfl, fun other => ?_⟩
  rw [size] at length
  split at length
  · next short =>
    obtain rfl : magnitude = [] := List.length_eq_zero_iff.1 (by omega)
    rw [List.nil_append, read?_short short] at h
    obtain ⟨rfl, -⟩ := Prod.mk.inj (Option.some.inj h)
    exact read?_short short
  · next long =>
    have exact_length : magnitude.length = magnitudeLength head := by omega
    rw [read?_long long (by simp [exact_length]), List.take_left' exact_length] at h
    obtain ⟨rfl, -⟩ := Prod.mk.inj (Option.some.inj h)
    rw [List.cons_append, read?_long long (by simp [exact_length]), List.take_left' exact_length,
      List.drop_left' exact_length]

theorem Spans.unique {code rest rest' : Bytes} (h : Spans code rest) (h' : Spans code rest') :
    rest = rest' := by
  obtain ⟨n, hn⟩ := h.exists_read?
  obtain ⟨n', hn'⟩ := h'.exists_read?
  exact (Prod.mk.inj (Option.some.inj (hn.symm.trans hn'))).2

theorem bigEndian_concat (bytes : Bytes) (byte : UInt8) :
    (bytes ++ [byte]).bigEndian = 256 * bytes.bigEndian + byte.toNat := by
  simp [Bytes.bigEndian]

theorem bigEndian_magnitudeBytes (n : Nat) : (magnitudeBytes n).bigEndian = n := by
  fun_induction magnitudeBytes n with
  | case1 n small =>
    simp only [Bytes.bigEndian, List.foldl_cons, List.foldl_nil, UInt8.toNat_ofNat']
    omega
  | case2 n large ih =>
    simp only [bigEndian_concat, ih, UInt8.toNat_ofNat']
    omega

theorem length_magnitudeBytes_pos (n : Nat) : 1 ≤ (magnitudeBytes n).length := by
  rw [magnitudeBytes]
  split <;> simp

/-- One more byte is enough for numbers up to 256 times as large. -/
theorem length_magnitudeBytes_succ_le {n count : Nat}
    (h : (magnitudeBytes (n / 256)).length ≤ count) : (magnitudeBytes n).length ≤ count + 1 := by
  rw [magnitudeBytes]
  split
  · exact Nat.le_add_left 1 count
  · simpa using h

theorem length_magnitudeBytes_le {n : Nat} (h : n < 0x100000000) :
    (magnitudeBytes n).length ≤ 4 := by
  have first : (magnitudeBytes (n / 256 / 256 / 256)).length ≤ 1 := by
    rw [magnitudeBytes, if_pos (by omega)]
    exact Nat.le_refl 1
  exact length_magnitudeBytes_succ_le
    (length_magnitudeBytes_succ_le (length_magnitudeBytes_succ_le first))

/-- The magnitude and the sign of an integer give it back, the least integer included. -/
theorem ofNat_natAbs_signed (n : Int32) :
    (if n.toInt < 0 then -Int32.ofNat n.toInt.natAbs else Int32.ofNat n.toInt.natAbs) = n := by
  have lower := n.le_toInt
  have upper := n.toInt_lt
  have size : Int32.size = 0x100000000 := rfl
  apply Int32.toInt_inj.1
  split
  · next negative =>
    rw [Int32.toInt_neg, Int32.toInt_ofNat', size, Int.bmod_neg_bmod, Int.bmod_eq_of_le]
    all_goals omega
  · next nonnegative =>
    rw [Int32.toInt_ofNat', size, Int.bmod_eq_of_le]
    all_goals omega

/-- The head byte of a magnitude of so many bytes. -/
def head (negative : Bool) (length : Nat) : UInt8 :=
  UInt8.ofNat (firstHead + (if negative then 4 else 0) + (length - 1))

section
variable {length : Nat} (positive : 1 ≤ length) (small : length ≤ 4) (negative : Bool)
include positive small

theorem toNat_head :
    (head negative length).toNat = firstHead + (if negative then 4 else 0) + (length - 1) := by
  rw [head, UInt8.toNat_ofNat']
  cases negative <;> simp [firstHead] <;> omega

theorem magnitudeLength_head : magnitudeLength (head negative length) = length := by
  rw [magnitudeLength, toNat_head positive small]
  cases negative <;> simp [firstHead] <;> omega

theorem negates_head : negates (head negative length) = negative := by
  rw [negates, toNat_head positive small]
  cases negative <;> simp [firstHead] <;> omega

end

/-- What is written is read back, whatever follows it. -/
theorem read?_write (n : Int32) (rest : Bytes) : read? (write n ++ rest) = some (n, rest) := by
  have lower := n.le_toInt
  have upper := n.toInt_lt
  have restored := ofNat_natAbs_signed n
  rw [write]
  split
  · next short =>
    have byte : (UInt8.ofNat n.toInt.toNat).toNat = n.toInt.natAbs := by
      rw [UInt8.toNat_ofNat']
      simp only [firstHead] at short
      omega
    rw [if_neg (by omega)] at restored
    simp only [List.singleton_append, read?, byte]
    rw [if_pos (by omega), restored]
  · next long =>
    have positive := length_magnitudeBytes_pos n.toInt.natAbs
    have small : (magnitudeBytes n.toInt.natAbs).length ≤ 4 :=
      length_magnitudeBytes_le (by omega)
    have written : UInt8.ofNat (firstHead + (if n.toInt < 0 then 4 else 0) +
        ((magnitudeBytes n.toInt.natAbs).length - 1)) =
        head (n.toInt < 0) (magnitudeBytes n.toInt.natAbs).length := by
      simp only [head, decide_eq_true_eq]
    simp only [written, List.cons_append, read?, toNat_head positive small,
      magnitudeLength_head positive small, negates_head positive small, List.take_left,
      List.drop_left, bigEndian_magnitudeBytes, decide_eq_true_eq, restored]
    rw [if_neg (by omega), if_neg (by omega)]

theorem read?_take_write {n : Int32} {cut : Nat} (inside : cut < (write n).length) :
    read? ((write n).take cut) = none := by
  have read := read?_write n []
  rw [List.append_nil] at read
  exact (spans_of_read? read).read?_take inside

end Operand

theorem compactByte?_eq_none_iff {n : Int32} :
    compactByte? n = none ↔ n.toInt < -16 ∨ 111 < n.toInt := by
  simp only [compactByte?, compactBias]
  split
  · next range => simpa using by omega
  · next range => simpa using by omega

/-- A compact literal is read back. -/
theorem compactValue_of_compactByte? {n : Int32} {byte : UInt8} (h : compactByte? n = some byte) :
    compactBase ≤ byte ∧ compactValue byte = n := by
  rw [compactByte?] at h
  split at h
  · next range =>
    simp only [compactBias] at range
    have small : (UInt8.ofNat (n.toInt + compactBias).toNat).toNat = (n.toInt + 16).toNat := by
      rw [UInt8.toNat_ofNat']
      simp only [compactBias]
      omega
    cases h
    constructor
    · rw [UInt8.le_iff_toNat_le, UInt8.toNat_add, small]
      simp only [compactBase, UInt8.reduceToNat]
      omega
    · have shift : compactBase + UInt8.ofNat (n.toInt + compactBias).toNat - compactBase =
          UInt8.ofNat (n.toInt + compactBias).toNat := by
        rw [UInt8.add_comm, UInt8.add_sub_cancel]
      have unbiased : ((n.toInt + 16).toNat : Int) - compactBias = n.toInt := by
        simp only [compactBias]
        omega
      rw [compactValue, shift, small, unbiased, Int32.ofInt_toInt]
  · cases h

namespace Opcode

theorem ofByte?_toByte (opcode : Opcode) : ofByte? opcode.toByte = some opcode := by
  cases opcode with
  | unary operator => cases operator <;> rfl
  | binary operator => cases operator <;> rfl
  | _ => rfl

/-- No opcode byte is a compact literal. -/
theorem not_compact_of_ofByte? {byte : UInt8} {opcode : Opcode} (h : ofByte? byte = some opcode) :
    ¬compactBase ≤ byte := by
  intro compact
  have large : all.length ≤ byte.toNat := by
    have : (128 : Nat) ≤ byte.toNat := UInt8.le_iff_toNat_le.1 compact
    have : all.length = 62 := rfl
    omega
  rw [ofByte?, List.getElem?_eq_none large] at h
  cases h

end Opcode
end NodeScript
