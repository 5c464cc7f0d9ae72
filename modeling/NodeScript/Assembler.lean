import NodeScript.Opcode
import NodeScript.Operand

/-!
# Writing expression code

The pieces that code is put together from, in the order of a prefix walk over the expression: opcodes,
immediate operands and integer literals.
-/
namespace NodeScript.Assembler

def opcode (opcode : Opcode) : Bytes := [opcode.toByte]

/-- An opcode and its immediate operand. -/
def withImmediate (opcode : Opcode) (n : Int32) : Bytes := opcode.toByte :: Operand.write n

/-- An integer literal, compact where it can be. -/
def integer (n : Int32) : Bytes :=
  match compactByte? n with
  | some byte => [byte]
  | none => withImmediate .literal n

end NodeScript.Assembler
