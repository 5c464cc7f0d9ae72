import NodeScript.Operators

/-!
# Opcodes

The opcodes of expression code, their numbers, and their shapes: whether an immediate integer follows
the opcode byte, and how many operand expressions follow that.
-/
namespace NodeScript

inductive Opcode where
  | invalid
  | loadLocal | loadParam | loadGlobal | loadBuffer | literal | literalDouble | resultValue | now
  | stringMatch | packetSize | eventCode | registerGetCode | commandCode | reportCode | packetBuffer
  | roleIsConnected | fiberHandle | staticRole | staticBuffer
  | field | element | length | keyCount | typeOf
  | literalNull | literalTrue | literalFalse | literalNaN
  | random | randomInt
  | unary (operator : UnaryOp)
  | binary (operator : BinaryOp)
  deriving DecidableEq

namespace Opcode

/-- All opcodes. The position in this table is the opcode's number. -/
def all : List Opcode :=
  [.invalid,
    .loadLocal, .loadParam, .loadGlobal, .loadBuffer, .literal, .literalDouble, .resultValue, .now,
    .stringMatch, .packetSize, .eventCode, .registerGetCode, .commandCode, .reportCode,
    .packetBuffer,
    .roleIsConnected, .fiberHandle, .staticRole, .staticBuffer,
    .field, .element, .length, .keyCount, .typeOf, .unary .isNull,
    .literalNull, .literalTrue, .literalFalse, .literalNaN,
    .unary .abs, .unary .bitNot, .unary .ceil, .unary .floor, .unary .round, .unary .identity,
    .unary .isNaN, .unary .logE, .unary .neg, .unary .not, .random, .randomInt, .unary .toBool,
    .binary .add, .binary .sub, .binary .mul, .binary .div, .binary .pow,
    .binary .bitAnd, .binary .bitOr, .binary .bitXor,
    .binary .shiftLeft, .binary .shiftRight, .binary .shiftRightUnsigned,
    .binary .idiv, .binary .imul, .binary .eq, .binary .le, .binary .lt, .binary .ne,
    .binary .max, .binary .min]

def ofByte? (byte : UInt8) : Option Opcode := all[byte.toNat]?

def toByte (opcode : Opcode) : UInt8 := UInt8.ofNat (all.idxOf opcode)

def hasImmediate : Opcode → Bool
  | .loadLocal | .loadParam | .loadGlobal | .literal | .literalDouble | .staticRole | .staticBuffer
  | .field => true
  | _ => false

/-- The number of operand expressions. -/
def arity : Opcode → Nat
  | .loadBuffer => 3
  | .stringMatch | .element | .binary _ => 2
  | .roleIsConnected | .fiberHandle | .field | .length | .keyCount | .typeOf
  | .random | .randomInt | .unary _ => 1
  | _ => 0

end Opcode
end NodeScript
