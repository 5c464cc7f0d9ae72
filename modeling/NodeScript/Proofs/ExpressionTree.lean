import NodeScript.Assembler
import NodeScript.Evaluator

/-!
# Expression trees

Expressions as trees, with a meaning that knows nothing of code: a node has its operands evaluated
from left to right, each is checked before the next one is evaluated, and then a table says what the
opcode makes of its immediate operand and the values. The tree walk that writes a tree as code is here
too.
-/
namespace NodeScript

/-- An expression tree. Every opcode has an immediate operand if its shape says so and exactly as many
operands as its arity. -/
inductive Expression where
  | integer (n : Int32)
  | apply (opcode : Opcode) (immediate? : Option Int32)
      (shaped : immediate?.isSome = opcode.hasImmediate) (operands : Fin opcode.arity → Expression)

/-- Results and faults that may draw on the random generator. -/
abbrev Sampling (α : Type) : Type := Generator → Except Fault α × Generator

namespace Sampling

variable {α β γ : Type}

def of (result : Except Fault α) : Sampling α := fun generator => (result, generator)

/-- A sample, which never fails. -/
def drawn (sample : Generator → α × Generator) : Sampling α := fun generator =>
  (.ok (sample generator).1, (sample generator).2)

/-- Goes on with the first result, and stops with the first fault. -/
def andThen (first : Sampling α) (next : α → Sampling β) : Sampling β := fun generator =>
  match first generator with
  | (.ok a, generator) => next a generator
  | (.error fault, generator) => (.error fault, generator)

/-- Stops with what is wrong with the result. -/
def checked (fault? : α → Option Fault) (first : Sampling α) : Sampling α :=
  first.andThen fun a =>
    match fault? a with
    | some fault => of (.error fault)
    | none => of (.ok a)

@[simp] theorem of_ok_andThen (a : α) (next : α → Sampling β) :
    andThen (of (.ok a)) next = next a := rfl

@[simp] theorem of_error_andThen (fault : Fault) (next : α → Sampling β) :
    andThen (of (.error fault)) next = of (.error fault) := rfl

@[simp] theorem andThen_of_ok (first : Sampling α) : (first.andThen fun a => of (.ok a)) = first := by
  funext generator
  simp only [andThen]
  rcases first generator with ⟨_ | _, _⟩ <;> rfl

@[simp] theorem andThen_andThen (first : Sampling α) (second : α → Sampling β)
    (third : β → Sampling γ) :
    (first.andThen second).andThen third = first.andThen fun a => (second a).andThen third := by
  funext generator
  simp only [andThen]
  rcases first generator with ⟨_ | _, _⟩ <;> rfl

@[simp] theorem checked_none (first : Sampling α) : first.checked (fun _ => none) = first :=
  first.andThen_of_ok

end Sampling

/-- What is wrong with a value that is to be a buffer. -/
def World.bufferFault? (world : World) : Value → Option Fault
  | .packetBuffer => none
  | .handle .imageBuffer index =>
    if index.toNat < world.image.strings.size then none else some .stringOutOfRange
  | _ => some .expectedBuffer

/-- What is wrong with a value that is to be a role. -/
def World.roleFault? (world : World) : Value → Option Fault
  | .handle .role index =>
    if index.toNat < world.image.roles.size then none else some .roleOutOfRange
  | _ => some .expectedRole

/-- What is wrong with a value that is to be a heap object. -/
def Value.objectFault? : Value → Option Fault
  | .handle .gcObject _ => none
  | _ => some .expectedMap

/-- What an opcode makes of its immediate operand and of the values of its operands. -/
abbrev Rule : Type := Option Int32 → List Value → Sampling Value

namespace Rule

/-- No tree gives a rule other operands than it is for. -/
def misfit : Sampling Value := .of (.error .invalidExpression)

def constant (result : Except Fault Value) : Rule := fun _ _ => .of result

def immediate (result : Int32 → Except Fault Value) : Rule
  | some n, _ => .of (result n)
  | none, _ => misfit

def sampled (result : Value → Sampling Value) : Rule
  | _, [v] => result v
  | _, _ => misfit

def unary (result : Value → Value) : Rule := sampled fun v => .of (.ok (result v))

def binary (result : Value → Value → Value) : Rule
  | _, [left, right] => .of (.ok (result left right))
  | _, _ => misfit

def ternary (result : Value → Value → Value → Except Fault Value) : Rule
  | _, [first, second, third] => .of (result first second third)
  | _, _ => misfit

end Rule

/-- The entry that is there, or a fault. -/
def entryOr (fault : Fault) : Option Value → Except Fault Value
  | some v => .ok v
  | none => .error fault

namespace Opcode

variable (world : World) (frame : Frame)

/-- What is wrong with the value of an opcode's first operand. The values of the others are never
wrong by themselves. -/
def firstFault? : Opcode → Value → Option Fault
  | .loadBuffer | .stringMatch => world.bufferFault?
  | .roleIsConnected => world.roleFault?
  | .field | .element | .keyCount => Value.objectFault?
  | _ => fun _ => none

/-- A random fraction of a number. -/
def fractionOf (x : Binary64) : Sampling Value := .drawn fun generator =>
  let (fraction, generator) := generator.drawFraction
  (.ofBinary64 (fraction.mul x), generator)

/-- A random integer from zero to a number, and zero without a draw where the number is not positive. -/
def integerUpTo (bound : Int32) : Sampling Value :=
  if bound ≤ 0 then .of (.ok (.int 0))
  else .drawn fun generator =>
    let (k, generator) := generator.drawUpTo bound.toNatClampNeg
      (Handler.toNatClampNeg_add_one_lt bound)
    (.int (Int32.ofNat k), generator)

/-- The result of an opcode whose operands have been evaluated and are not wrong. -/
def rule : Opcode → Rule
  | .invalid => .constant (.error .invalidExpression)
  | .loadLocal => .immediate fun index =>
    entryOr .localOutOfRange ((Handler.lookup? frame.locals index).map Value.normalized)
  | .loadParam => .immediate fun index =>
    .ok (((Handler.lookup? frame.params index).map Value.normalized).getD .undefined)
  | .loadGlobal => .immediate fun index =>
    entryOr .globalOutOfRange (Handler.lookup? world.globals index)
  | .literal => .immediate fun n => .ok (.int n)
  | .literalDouble => .immediate fun index =>
    entryOr .doubleOutOfRange (world.image.float? index.toUInt32)
  | .staticRole => .immediate fun index =>
    if index.toUInt32.toNat < world.image.roles.size then .ok (.handle .role index.toUInt32)
    else .error .roleOutOfRange
  | .staticBuffer => .immediate fun index =>
    if index.toUInt32.toNat < world.image.strings.size then
      .ok (.handle .imageBuffer index.toUInt32)
    else .error .stringOutOfRange
  | .resultValue => .constant
    (.ok (((world.fibers.find? frame.fiber).map fun fiber => fiber.result.normalized).getD .undefined))
  | .now => .constant (.ok (.ofBinary64 (.ofNat world.now.toNat)))
  | .packetSize => .constant (.ok (.int world.packet.serviceSize.toInt32))
  | .eventCode => .constant (.ok
    (if world.packet.isEvent then .int world.packet.eventCode.toInt32 else .undefined))
  | .registerGetCode => .constant (.ok
    (if world.packet.isReport && world.packet.isRegisterGet then
      .int world.packet.registerCode.toInt32 else .undefined))
  | .commandCode => .constant (.ok
    (if world.packet.isCommand then .int world.packet.command.toInt32 else .undefined))
  | .reportCode => .constant (.ok
    (if world.packet.isReport then .int world.packet.command.toInt32 else .undefined))
  | .packetBuffer => .constant (.ok .packetBuffer)
  | .literalNull => .constant (.ok .null)
  | .literalTrue => .constant (.ok (.bool true))
  | .literalFalse => .constant (.ok (.bool false))
  | .literalNaN => .constant (.ok .nan)
  | .loadBuffer => .ternary fun source format offset =>
    match NumberFormat.ofNat format.toInt32.toUInt32.toNat with
    | .ok format =>
      .ok (format.read ((world.bytes? source).getD []) offset.toInt32.toUInt32.toNat)
    | .error _ => .error .invalidNumberFormat
  | .stringMatch => .binary fun source offset =>
    .bool (world.packet.matchesTerminated offset.toInt32.toUInt32.toNat
      ((world.bytes? source).getD []))
  | .roleIsConnected => .unary fun role => .bool (world.isBound ((role.handleIndex? .role).getD 0))
  | .fiberHandle => .unary fun position =>
    if position.toInt32 < 0 then .handle .fiber frame.fiber
    else ((world.fibers.at? position.toInt32.toNatClampNeg).map Fiber.handle).getD .undefined
  | .field | .element | .keyCount => .constant (.error .unimplemented)
  | .length => .unary (Handler.lengthOf world)
  | .typeOf => .unary fun v => .int (Int32.ofNat (v.typeOf world.heap.type?).code)
  | .random => .sampled fun v => fractionOf v.toBinary64
  | .randomInt => .sampled fun v => integerUpTo v.toInt32
  | .unary operator => .unary operator.apply
  | .binary operator => .binary operator.apply

/-- Evaluates operands from left to right. The value of the first one is checked before the others are
evaluated. -/
def evalOperands (fault? : Value → Option Fault) : List (Sampling Value) → Sampling (List Value)
  | [] => .of (.ok [])
  | first :: others =>
    (first.checked fault?).andThen fun v =>
      (evalOperands (fun _ => none) others).andThen fun vs => .of (.ok (v :: vs))

/-- What an opcode makes of its operands: all of them are evaluated first. -/
def eval (opcode : Opcode) (immediate? : Option Int32) (operands : List (Sampling Value)) :
    Sampling Value :=
  (evalOperands (opcode.firstFault? world) operands).andThen (opcode.rule world frame immediate?)

end Opcode

namespace Expression

/-- The value of a tree where so many nodes are active and at most `limit` may be. An integer from -16
to 111 is no node; every other one is, as an opcode is, and a node too many fails on entry. -/
def eval (world : World) (frame : Frame) (limit : Nat) : Expression → (active : Nat) → Sampling Value
  | integer n, active =>
    if (n.toInt < -16 ∨ 111 < n.toInt) ∧ limit < active + 1 then .of (.error .tooDeep)
    else .of (.ok (.int n))
  | apply opcode immediate? _ operands, active =>
    if limit < active + 1 then .of (.error .tooDeep)
    else
      opcode.eval world frame immediate?
        (List.ofFn fun i => (operands i).eval world frame limit (active + 1))

/-- Evaluates trees one after another, until one of them fails, and lists the results. -/
def evalEach (world : World) (frame : Frame) (limit active : Nat) :
    List Expression → Generator → List (Except Fault Value) × Generator
  | [], generator => ([], generator)
  | expression :: others, generator =>
    match expression.eval world frame limit active generator with
    | (.error fault, generator) => ([.error fault], generator)
    | (.ok v, generator) =>
      let (results, generator) := evalEach world frame limit active others generator
      (.ok v :: results, generator)

/-- The fault among the results of evaluating trees, if one of them has failed. -/
def fault? (results : List (Except Fault Value)) : Option Fault :=
  results.findSome? fun
    | .ok _ => none
    | .error fault => some fault

/-- Writes a tree in the order of a prefix walk. -/
def code : Expression → Bytes
  | integer n => Assembler.integer n
  | apply opcode immediate? _ operands =>
    (match immediate? with
      | some n => Assembler.withImmediate opcode n
      | none => Assembler.opcode opcode) ++ (List.ofFn fun i => (operands i).code).flatten

/-- Writes trees one after another. -/
def codes (expressions : List Expression) : Bytes := (expressions.map code).flatten

end Expression
end NodeScript
