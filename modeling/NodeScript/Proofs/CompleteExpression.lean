import NodeScript.Proofs.OperandEncoding

/-!
# Complete expressions

Which bytes are complete expressions is defined by the tables of opcode shapes alone: a compact
literal, or a declared opcode byte with the opcode's immediate operand, if it has one, and as many
complete expressions as its arity. Code starts with complete expressions in at most one way.
-/
namespace NodeScript

/-- The code starts with a complete operand where one is due, and goes on with `rest`. -/
def Operand.SpansIf (due : Bool) (code rest : Bytes) : Prop :=
  if due then Operand.Spans code rest else rest = code

/-- The code starts with `count` complete expressions, the deepest of which nests `nesting` opcodes,
and goes on with `rest`. -/
inductive Expressions : (count nesting : Nat) → (code rest : Bytes) → Prop where
  | none (code : Bytes) : Expressions 0 0 code code
  | compact {count nesting : Nat} {byte : UInt8} {code rest : Bytes}
      (compact : compactBase ≤ byte) (others : Expressions count nesting code rest) :
      Expressions (count + 1) nesting (byte :: code) rest
  | opcode {count inner nesting : Nat} {byte : UInt8} {opcode : Opcode}
      {code operands following rest : Bytes} (declared : Opcode.ofByte? byte = some opcode)
      (immediate : Operand.SpansIf opcode.hasImmediate code operands)
      (within : Expressions opcode.arity inner operands following)
      (others : Expressions count nesting following rest) :
      Expressions (count + 1) (max (inner + 1) nesting) (byte :: code) rest

theorem Operand.SpansIf.unique {due : Bool} {code rest rest' : Bytes}
    (h : SpansIf due code rest) (h' : SpansIf due code rest') : rest = rest' := by
  cases due with
  | false => exact Eq.trans (b := code) h (Eq.symm h')
  | true => exact Spans.unique h h'

theorem Operand.Spans.suffix {code rest : Bytes} (h : Spans code rest) : rest <:+ code := by
  obtain ⟨head, magnitude, rfl, -⟩ := h
  exact ⟨head :: magnitude, rfl⟩

theorem Operand.SpansIf.suffix {due : Bool} {code rest : Bytes} (h : SpansIf due code rest) :
    rest <:+ code := by
  cases due with
  | false =>
    obtain rfl : rest = code := h
    exact List.suffix_rfl
  | true => exact Spans.suffix h

namespace Expressions

variable {count count' nesting nesting' inner : Nat} {byte : UInt8} {opcode : Opcode}
  {code middle rest rest' operands : Bytes}

theorem one_compact (compact : compactBase ≤ byte) : Expressions 1 0 (byte :: code) code :=
  .compact compact (.none code)

theorem one_opcode (declared : Opcode.ofByte? byte = some opcode)
    (immediate : Operand.SpansIf opcode.hasImmediate code operands)
    (within : Expressions opcode.arity inner operands rest) :
    Expressions 1 (inner + 1) (byte :: code) rest := by
  simpa using Expressions.opcode declared immediate within (.none rest)

theorem append (first : Expressions count nesting code middle)
    (second : Expressions count' nesting' middle rest) :
    Expressions (count' + count) (max nesting nesting') code rest := by
  induction first with
  | none code => simpa using second
  | compact compact _ ih => exact .compact compact (ih second)
  | opcode declared immediate within _ _ ih =>
    rw [Nat.max_assoc]
    exact .opcode declared immediate within (ih second)

theorem cons (first : Expressions 1 nesting code middle)
    (others : Expressions count nesting' middle rest) :
    Expressions (count + 1) (max nesting nesting') code rest := first.append others

/-- The first of several expressions, and the others. -/
theorem uncons (h : Expressions (count + 1) nesting code rest) :
    ∃ first others middle, Expressions 1 first code middle ∧
      Expressions count others middle rest ∧ nesting = max first others := by
  cases h with
  | compact compact others =>
    exact ⟨0, nesting, _, one_compact compact, others, (Nat.zero_max nesting).symm⟩
  | opcode declared immediate within others =>
    exact ⟨_, _, _, one_opcode declared immediate within, others, rfl⟩

theorem none_iff : Expressions 0 nesting code rest ↔ nesting = 0 ∧ rest = code := by
  constructor
  · intro h
    cases h
    exact ⟨rfl, rfl⟩
  · rintro ⟨rfl, rfl⟩
    exact .none _

/-- The same code does not start with as many complete expressions in another way. -/
theorem unique (h : Expressions count nesting code rest)
    (h' : Expressions count nesting' code rest') : nesting = nesting' ∧ rest = rest' := by
  induction h generalizing nesting' rest' with
  | none code =>
    obtain ⟨rfl, rfl⟩ := none_iff.1 h'
    exact ⟨rfl, rfl⟩
  | compact compact _ ih =>
    cases h' with
    | compact _ others' => exact ih others'
    | opcode declared => exact absurd compact (Opcode.not_compact_of_ofByte? declared)
  | opcode declared immediate _ _ ih_within ih_others =>
    cases h' with
    | compact compact => exact absurd compact (Opcode.not_compact_of_ofByte? declared)
    | opcode declared' immediate' within' others' =>
      obtain rfl := Option.some.inj (declared.symm.trans declared')
      obtain rfl := immediate.unique immediate'
      obtain ⟨rfl, rfl⟩ := ih_within within'
      obtain ⟨rfl, rfl⟩ := ih_others others'
      exact ⟨rfl, rfl⟩

theorem suffix (h : Expressions count nesting code rest) : rest <:+ code := by
  induction h with
  | none code => exact List.suffix_rfl
  | compact _ _ ih => exact ih.trans (List.suffix_cons _ _)
  | opcode _ immediate _ _ ih_within ih_others =>
    exact ((ih_others.trans ih_within).trans immediate.suffix).trans (List.suffix_cons _ _)

/-- An expression has at least one byte. -/
theorem length_lt (h : Expressions (count + 1) nesting code rest) : rest.length < code.length := by
  cases h with
  | compact _ others => exact Nat.lt_succ_of_le others.suffix.length_le
  | opcode _ immediate within others =>
    exact Nat.lt_succ_of_le
      ((others.suffix.trans within.suffix).trans immediate.suffix).length_le

end Expressions
end NodeScript
