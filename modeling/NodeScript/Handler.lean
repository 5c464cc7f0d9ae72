import NodeScript.NumberFormat
import NodeScript.Procedure

/-!
# What the opcodes do

One procedure for each opcode. Opcodes that look into heap objects check that they were given one and
then fail, since the layout of objects is not known here.
-/
namespace NodeScript
namespace Handler

open Procedure

/-- The entry of a table at an immediate operand. A negative operand is no index. -/
def lookup? (table : Array Value) (index : Int32) : Option Value :=
  if index < 0 then none else table[index.toNatClampNeg]?

def loadLocal (frame : Frame) : Procedure Value := do
  let index ← nextImmediate
  let v ← require .localOutOfRange (lookup? frame.locals index)
  pure v.normalized

/-- Parameters that the caller did not give are undefined. -/
def loadParam (frame : Frame) : Procedure Value := do
  let index ← nextImmediate
  match lookup? frame.params index with
  | some v => pure v.normalized
  | none => pure .undefined

def loadGlobal (world : World) : Procedure Value := do
  let index ← nextImmediate
  require .globalOutOfRange (lookup? world.globals index)

def literal : Procedure Value := do
  let n ← nextImmediate
  pure (.int n)

def literalDouble (world : World) : Procedure Value := do
  let index ← nextImmediate
  require .doubleOutOfRange (world.image.float? index.toUInt32)

/-- The buffer is checked before the format and the offset are evaluated, and the format after. -/
def loadBuffer (world : World) : Procedure Value := do
  let source ← buffer world
  let format ← uint32
  let offset ← uint32
  match NumberFormat.ofNat format.toNat with
  | .ok format => pure (format.read ((world.bytes? source).getD []) offset.toNat)
  | .error _ => fail .invalidNumberFormat

/-- What the last call on the frame's fiber returned. -/
def resultValue (world : World) (frame : Frame) : Value :=
  match world.fibers.find? frame.fiber with
  | some fiber => fiber.result.normalized
  | none => .undefined

/-- Whether the packet holds the buffer and a zero byte at the offset. -/
def stringMatch (world : World) : Procedure Value := do
  let source ← buffer world
  let offset ← uint32
  pure (.bool (world.packet.matchesTerminated offset.toNat ((world.bytes? source).getD [])))

/-- A number of the packet, where the packet is of the kind that has it. -/
def codeIf (applies : Bool) (code : UInt32) : Value :=
  if applies then .int code.toInt32 else .undefined

def roleIsConnected (world : World) : Procedure Value := do
  let index ← roleIndex world
  pure (.bool (world.isBound index))

/-- A negative position names the frame's own fiber. -/
def fiberHandle (world : World) (frame : Frame) : Procedure Value := do
  let position ← int32
  if position < 0 then pure (.handle .fiber frame.fiber)
  else match world.fibers.at? position.toNatClampNeg with
    | some fiber => pure fiber.handle
    | none => pure .undefined

def staticRole (world : World) : Procedure Value := do
  let index ← nextImmediate
  let role ← checkRole world index.toUInt32
  pure (.handle .role role)

def staticBuffer (world : World) : Procedure Value := do
  let index ← nextImmediate
  let string ← checkString world index.toUInt32
  pure (.handle .imageBuffer string)

def field : Procedure Value := do
  let _ ← nextImmediate
  let _ ← objectIndex
  fail .unimplemented

def element : Procedure Value := do
  let _ ← objectIndex
  let _ ← value
  fail .unimplemented

def keyCount : Procedure Value := do
  let _ ← objectIndex
  fail .unimplemented

/-- The length of the array behind a handle. -/
def arrayLength? (world : World) (v : Value) : Option Nat := do
  let index ← v.handleIndex? .gcObject
  if world.heap.object? index = some .array then world.heap.arrayLength? index else none

/-- The number of bytes of a buffer or of elements of an array, and zero for everything else. -/
def lengthOf (world : World) (v : Value) : Value :=
  match world.bytes? v with
  | some bytes => .int (Int32.ofNat bytes.length)
  | none => .int (Int32.ofNat ((arrayLength? world v).getD 0))

def length (world : World) : Procedure Value := do
  let v ← value
  pure (lengthOf world v)

def typeOf (world : World) : Procedure Value := do
  let v ← value
  pure (.int (Int32.ofNat (v.typeOf world.heap.type?).code))

/-- A random fraction of the operand. -/
def random : Procedure Value := do
  let x ← binary64
  draw (fun generator =>
    let (fraction, generator) := generator.drawFraction
    (.ofBinary64 (fraction.mul x), generator)) done

theorem toNatClampNeg_add_one_lt (n : Int32) : n.toNatClampNeg + 1 < Generator.halfRange := by
  have := n.toInt_lt
  unfold Int32.toNatClampNeg Generator.halfRange
  omega

/-- A random integer from zero to the operand. An operand that is not positive gives zero without a
draw. -/
def randomInt : Procedure Value := do
  let bound ← int32
  if bound ≤ 0 then pure (.int 0)
  else
    draw (fun generator =>
      let (k, generator) := generator.drawUpTo bound.toNatClampNeg (toNatClampNeg_add_one_lt bound)
      (.int (Int32.ofNat k), generator)) done

def unary (operator : UnaryOp) : Procedure Value := do
  let v ← value
  pure (operator.apply v)

def binary (operator : BinaryOp) : Procedure Value := do
  let (left, right) ← pair
  pure (operator.apply left right)

end Handler

/-- The procedure of an opcode in a world and a frame. -/
def Opcode.handler (world : World) (frame : Frame) : Opcode → Procedure Value
  | .invalid => .fail .invalidExpression
  | .loadLocal => Handler.loadLocal frame
  | .loadParam => Handler.loadParam frame
  | .loadGlobal => Handler.loadGlobal world
  | .loadBuffer => Handler.loadBuffer world
  | .literal => Handler.literal
  | .literalDouble => Handler.literalDouble world
  | .resultValue => .done (Handler.resultValue world frame)
  | .now => .done (.ofBinary64 (.ofNat world.now.toNat))
  | .stringMatch => Handler.stringMatch world
  | .packetSize => .done (.int world.packet.serviceSize.toInt32)
  | .eventCode => .done (Handler.codeIf world.packet.isEvent world.packet.eventCode)
  | .registerGetCode =>
    .done (Handler.codeIf (world.packet.isReport && world.packet.isRegisterGet)
      world.packet.registerCode)
  | .commandCode => .done (Handler.codeIf world.packet.isCommand world.packet.command)
  | .reportCode => .done (Handler.codeIf world.packet.isReport world.packet.command)
  | .packetBuffer => .done .packetBuffer
  | .roleIsConnected => Handler.roleIsConnected world
  | .fiberHandle => Handler.fiberHandle world frame
  | .staticRole => Handler.staticRole world
  | .staticBuffer => Handler.staticBuffer world
  | .field => Handler.field
  | .element => Handler.element
  | .length => Handler.length world
  | .keyCount => Handler.keyCount
  | .typeOf => Handler.typeOf world
  | .literalNull => .done .null
  | .literalTrue => .done (.bool true)
  | .literalFalse => .done (.bool false)
  | .literalNaN => .done .nan
  | .random => Handler.random
  | .randomInt => Handler.randomInt
  | .unary operator => Handler.unary operator
  | .binary operator => Handler.binary operator

end NodeScript
