import Mathlib.Data.List.Induction
import NodeScript.Proofs.ImmediateRoundTrip

/-!
# The lengths of immediate operands

Many byte strings read as one integer: with leading zeros, with a zero negated, or with a magnitude or
a negation that wraps around. What is written is the shortest of them. The head byte says how long an
operand is, so that no operand is a proper part of the front of another one, while code that is too
short to be read is such a part of some operand.
-/
namespace NodeScript
namespace Operand

/-- The bytes read as the integer, whatever follows them. -/
def Codes (taken : Bytes) (n : Int32) : Prop := ∀ after, read? (taken ++ after) = some (n, after)

section
variable {taken taken' after : Bytes} {n n' : Int32}

theorem codes_of_read? (read : read? (taken ++ after) = some (n, after)) : Codes taken n := by
  obtain ⟨front, code, whatever⟩ := read?_append read
  rwa [← List.append_cancel_right code] at whatever

theorem codes_write (n : Int32) : Codes (write n) n := read?_write n

/-! ## The shortest code -/

/-- Bytes that spell a number are not fewer than the magnitude bytes of that number or a smaller one. -/
theorem length_magnitudeBytes_le_of_le {bytes : Bytes} (nonempty : bytes ≠ []) {n : Nat}
    (spelled : n ≤ bytes.bigEndian) : (magnitudeBytes n).length ≤ bytes.length := by
  induction bytes using List.reverseRecOn generalizing n with
  | nil => exact absurd rfl nonempty
  | append_singleton front byte ih =>
    rw [bigEndian_concat] at spelled
    rw [List.length_append, List.length_singleton]
    have last := byte.toNat_lt
    by_cases single : front = []
    · subst single
      have small : n < 256 := Nat.lt_of_le_of_lt spelled (by simpa [Bytes.bigEndian] using last)
      rw [magnitudeBytes, if_pos small]
      exact Nat.le_refl 1
    · exact length_magnitudeBytes_succ_le (ih single (by omega))

/-- Wrapping around to 32 bits makes no integer larger. -/
theorem natAbs_bmod_le (n : Int) : (n.bmod 0x100000000).natAbs ≤ n.natAbs := by
  rw [Int.bmod_def]
  omega

/-- An operand of the longer form stands for no integer larger than its magnitude. -/
theorem natAbs_le_of_read? {head : UInt8} {rest after : Bytes} {n : Int32}
    (long : ¬head.toNat < firstHead) (read : read? (head :: rest) = some (n, after)) :
    n.toInt.natAbs ≤ Bytes.bigEndian (rest.take (magnitudeLength head)) := by
  have unsigned (m : Nat) : (Int32.ofNat m).toInt.natAbs ≤ m := by
    rw [Int32.toInt_ofNat']
    exact natAbs_bmod_le m
  have negated (m : Int32) : (-m).toInt.natAbs ≤ m.toInt.natAbs := by
    rw [Int32.toInt_neg, ← Int.natAbs_neg m.toInt]
    exact natAbs_bmod_le _
  by_cases enough : magnitudeLength head ≤ rest.length
  · rw [read?_long long enough] at read
    obtain ⟨rfl, -⟩ := Prod.mk.inj (Option.some.inj read)
    dsimp only
    split
    · exact Nat.le_trans (negated _) (unsigned _)
    · exact unsigned _
  · rw [read?_truncated long (Nat.not_le.1 enough)] at read
    cases read

theorem length_write_short (short : 0 ≤ n.toInt ∧ n.toInt < firstHead) : (write n).length = 1 := by
  rw [write, if_pos short]
  rfl

theorem length_write_le (n : Int32) :
    (write n).length ≤ 1 + (magnitudeBytes n.toInt.natAbs).length := by
  rw [write]
  split
  · exact Nat.le_add_right 1 _
  · exact Nat.le_of_eq (Nat.add_comm _ 1)

theorem Codes.length_eq (codes : Codes taken n) :
    ∃ head magnitude, taken = head :: magnitude ∧ 1 + magnitude.length = size head := by
  obtain ⟨head, magnitude, code, length⟩ := spans_of_read? (codes [])
  simp only [List.append_nil] at code
  exact ⟨head, magnitude, code, length⟩

/-- No code of an integer is shorter than what is written for it. -/
theorem Codes.length_write_le (codes : Codes taken n) : (write n).length ≤ taken.length := by
  obtain ⟨head, magnitude, rfl, length⟩ := codes.length_eq
  have read := codes []
  rw [List.append_nil] at read
  rw [List.length_cons]
  rw [size] at length
  split at length
  · next short =>
    rw [read?_short short] at read
    obtain ⟨rfl, -⟩ := Prod.mk.inj (Option.some.inj read)
    have value : (Int32.ofNat head.toNat).toInt = head.toNat :=
      Int32.toInt_ofNat_of_lt (Nat.lt_trans short (by decide))
    rw [length_write_short (by omega)]
    exact Nat.le_add_left 1 _
  · next long =>
    have spelled := natAbs_le_of_read? long read
    rw [List.take_of_length_le (by omega)] at spelled
    have nonempty : magnitude ≠ [] := by
      rintro rfl
      rw [magnitudeLength] at length
      simp only [List.length_nil] at length
      omega
    have shortest := length_magnitudeBytes_le_of_le nonempty spelled
    have written := Operand.length_write_le n
    omega

/-! ## Where operands end -/

theorem Codes.eq_of_isPrefix (first : Codes taken n) (second : Codes taken' n')
    (front : taken <+: taken') : taken = taken' ∧ n = n' := by
  obtain ⟨more, rfl⟩ := front
  have read := second []
  rw [List.append_nil, first more] at read
  obtain ⟨rfl, rfl⟩ := Prod.mk.inj (Option.some.inj read)
  exact ⟨(List.append_nil taken).symm, rfl⟩

theorem size_eq (head : UInt8) :
    size head = if head < 0xF8 then 1 else 2 + (head &&& 3).toNat := by
  have low : (head &&& 3).toNat = head.toNat % 4 :=
    (UInt8.toNat_and head 3).trans (Nat.and_two_pow_sub_one_eq_mod head.toNat 2)
  have short : head < 0xF8 ↔ head.toNat < firstHead := UInt8.lt_iff_toNat_lt
  simp only [size, magnitudeLength, low, short]
  split <;> omega

/-- Code either starts with a complete operand or can be made one by further bytes. -/
theorem spans_or_incomplete (code : Bytes) :
    (∃ rest, Spans code rest) ∨ ∃ more, more ≠ [] ∧ Spans (code ++ more) [] := by
  cases code with
  | nil => exact .inr ⟨[0], by simp, 0, [], rfl, rfl⟩
  | cons head tail =>
    by_cases enough : size head ≤ tail.length + 1
    · have positive : 1 ≤ size head := by
        rw [size]
        split <;> omega
      refine .inl ⟨tail.drop (size head - 1), head, tail.take (size head - 1), ?_, ?_⟩
      · rw [List.take_append_drop]
      · rw [List.length_take]
        omega
    · refine .inr ⟨List.replicate (size head - (tail.length + 1)) 0, ?_, head,
        tail ++ List.replicate (size head - (tail.length + 1)) 0, by simp, ?_⟩
      · rw [ne_eq, List.replicate_eq_nil_iff]
        omega
      · rw [List.length_append, List.length_replicate]
        omega

theorem Spans.exists_codes {code rest : Bytes} (h : Spans code rest) :
    ∃ head magnitude n, code = head :: magnitude ++ rest ∧
      (head :: magnitude).length = size head ∧ Codes (head :: magnitude) n := by
  obtain ⟨n, read⟩ := h.exists_read?
  obtain ⟨head, magnitude, rfl, length⟩ := h
  exact ⟨head, magnitude, n, rfl, by rw [← length, List.length_cons, Nat.add_comm],
    codes_of_read? read⟩

theorem Spans.read?_eq_none {code more : Bytes} (h : Spans (code ++ more) [])
    (incomplete : more ≠ []) : read? code = none := by
  have inside : code.length + ([] : Bytes).length < (code ++ more).length := by
    have longer := List.length_pos_iff.2 incomplete
    rw [List.length_append, List.length_nil]
    omega
  have cut := h.read?_take inside
  rwa [List.take_left] at cut

end
end Operand

namespace Engine

/-- Fetching an immediate operand takes just these bytes off the code, changes nothing else and gives
the integer. -/
structure Fetches (engine : Engine) (frame : Frame) (taken : Bytes) (n : Int32) : Prop where
  front : taken <+: engine.code frame
  result : engine.fetchImmediate frame =
    (.ok n, { frame with pc := frame.pc + taken.length }, engine)

section
variable {engine : Engine} {frame : Frame} {taken : Bytes} {n : Int32}

theorem Fetches.of_codes (front : taken <+: engine.code frame) (codes : Operand.Codes taken n) :
    engine.Fetches frame taken n := by
  obtain ⟨after, code⟩ := front
  have left : (engine.functionCode frame).drop frame.pc = taken ++ after :=
    (World.code_eq_drop engine.toWorld frame).symm.trans code.symm
  exact ⟨⟨after, code⟩, fetchImmediate_of_read? left (codes after)⟩

theorem Fetches.codes (fetches : engine.Fetches frame taken n) : Operand.Codes taken n := by
  obtain ⟨after, code⟩ := fetches.front
  have left := World.code_eq_drop engine.toWorld frame
  cases read : Operand.read? (engine.code frame) with
  | none =>
    have overrun := fetchImmediate_of_read?_eq_none (left ▸ read)
    cases (congrArg Prod.fst overrun).symm.trans (congrArg Prod.fst fetches.result)
  | some operand =>
    obtain ⟨n', rest⟩ := operand
    obtain ⟨taken', split, whatever⟩ := Operand.read?_append read
    have result := fetchImmediate_of_read? (left.symm.trans split) (whatever rest)
    have same := result.symm.trans fetches.result
    obtain rfl : n' = n := Except.ok.inj (congrArg Prod.fst same)
    have stop : frame.pc + taken'.length = frame.pc + taken.length :=
      congrArg (fun outcome => outcome.2.1.pc) same
    obtain ⟨rfl, -⟩ := List.append_inj (split.symm.trans code.symm) (by omega)
    exact whatever

end

/-- What is written for an integer is the shortest code of an operand that is fetched as that integer.
Whatever the code, fetching either takes as many bytes as the head byte says, one if it is below `F8`
and otherwise two more than its two low bits, or fails as an overrun on code that further bytes make
one operand. And no operand is a proper part of the front of another one. -/
theorem operand_codes_shortest (engine : Engine) (frame : Frame) :
    (∀ taken n, engine.Fetches frame taken n → (Operand.write n).length ≤ taken.length) ∧
    (∀ n, Operand.write n <+: engine.code frame → engine.Fetches frame (Operand.write n) n) ∧
    ((∃ head magnitude n, engine.Fetches frame (head :: magnitude) n ∧
        (head :: magnitude).length = if head < 0xF8 then 1 else 2 + (head &&& 3).toNat) ∨
      engine.fetchImmediate frame = (.error .codeOverrun,
          { frame with pc := frame.pc + (engine.code frame).length }, engine.fail .codeOverrun) ∧
        ∃ more, more ≠ [] ∧ ∀ (engine' : Engine) (frame' : Frame),
          engine'.code frame' = engine.code frame ++ more →
            ∃ n, engine'.Fetches frame' (engine.code frame ++ more) n) ∧
    ∀ (engine' : Engine) (frame' : Frame) taken taken' n n', engine.Fetches frame taken n →
      engine'.Fetches frame' taken' n' → taken <+: taken' → taken = taken' ∧ n = n' := by
  refine ⟨fun taken n fetches => fetches.codes.length_write_le,
    fun n front => .of_codes front (Operand.codes_write n), ?_,
    fun _ _ _ _ _ _ first second => first.codes.eq_of_isPrefix second.codes⟩
  rcases Operand.spans_or_incomplete (engine.code frame) with ⟨rest, complete⟩ | ⟨more, cut, whole⟩
  · obtain ⟨head, magnitude, n, code, length, codes⟩ := complete.exists_codes
    exact .inl ⟨head, magnitude, n, .of_codes ⟨rest, code.symm⟩ codes,
      length.trans (Operand.size_eq head)⟩
  · have left := World.code_eq_drop engine.toWorld frame
    refine .inr ⟨?_, more, cut, fun engine' frame' code => ?_⟩
    · rw [left]
      exact fetchImmediate_of_read?_eq_none (left ▸ whole.read?_eq_none cut)
    · obtain ⟨head, magnitude, n, same, -, codes⟩ := whole.exists_codes
      rw [List.append_nil] at same
      exact ⟨n, .of_codes (code ▸ List.prefix_refl _) (same ▸ codes)⟩

/-- Minus two hundred and fifty-five is also what a magnitude of four bytes wraps around to. It is
written with a magnitude of one byte, and the longer code does not start with what is written. -/
theorem operand_codes_shortest_wrapped :
    let wrapped : Bytes := [0xFB, 0xFF, 0xFF, 0xFF, 0x01]
    let written := Operand.write (-255)
    let engine := start { Image.empty with
      functions := #[⟨"wrapped", 0, 0, wrapped⟩, ⟨"written", 0, 0, written ++ [0x90]⟩] } .standard 0
    let frame (function : UInt32) : Frame := ⟨function, 0, #[], #[], 0⟩
    engine.Fetches (frame 0) wrapped (-255) ∧ written.length ≤ wrapped.length ∧
      engine.Fetches (frame 1) written (-255) ∧ ¬written <+: wrapped := by
  intro wrapped written engine frame
  have long : engine.Fetches (frame 0) wrapped (-255) := ⟨List.prefix_refl _, rfl⟩
  obtain ⟨-, takes, -, apart⟩ := operand_codes_shortest engine (frame 1)
  have short : engine.Fetches (frame 1) written (-255) := takes (-255) (List.prefix_append _ _)
  refine ⟨long, (operand_codes_shortest engine (frame 0)).1 wrapped (-255) long, short, ?_⟩
  intro front
  have same := (apart engine (frame 0) written wrapped (-255) (-255) short long front).1
  exact absurd (congrArg List.length same) (by decide +kernel)

end Engine
end NodeScript
