import NodeScript.Cursor
import NodeScript.Handler

/-!
# Evaluating expression code

An expression is a compact literal byte, or an opcode byte followed by the opcode's immediate operand
and its operand expressions. Evaluation recurses on the room that is left under the limit on nesting,
so that it always ends.
-/
namespace NodeScript

/-- Runs a procedure, with `evaluate` to answer its requests for operands. The first fault stops it. -/
def Procedure.run {α : Type} (evaluate : Cursor → Except Fault Value × Cursor) :
    Procedure α → Cursor → Except Fault α × Cursor
  | done result, cursor => (.ok result, cursor)
  | fail fault, cursor => cursor.fail fault
  | immediate next, cursor =>
    match cursor.readImmediate with
    | (.ok n, cursor) => (next n).run evaluate cursor
    | (.error fault, cursor) => (.error fault, cursor)
  | operand next, cursor =>
    match evaluate cursor with
    | (.ok v, cursor) => (next v).run evaluate cursor
    | (.error fault, cursor) => (.error fault, cursor)
  | draw sample next, cursor =>
    let (v, generator) := sample cursor.generator
    (next v).run evaluate { cursor with generator }

theorem Procedure.run_draw {α : Type} (evaluate : Cursor → Except Fault Value × Cursor)
    (sample : Generator → Value × Generator) (next : Value → Procedure α) (cursor : Cursor) :
    (draw sample next).run evaluate cursor = (next (sample cursor.generator).1).run evaluate
      { cursor with generator := (sample cursor.generator).2 } := rfl

/-- Reads the byte that an expression starts with. A compact literal is its own value, and any other
byte is left to `opcode`. -/
def Cursor.readExpression (opcode : UInt8 → Cursor → Except Fault Value × Cursor)
    (cursor : Cursor) : Except Fault Value × Cursor :=
  match cursor.readByte with
  | (.error fault, cursor) => (.error fault, cursor)
  | (.ok byte, cursor) =>
    if compactBase ≤ byte then (.ok (.int (compactValue byte)), cursor) else opcode byte cursor

/-- What an opcode byte starts, with `evaluate` for its operand expressions. -/
def dispatch (world : World) (frame : Frame) (evaluate : Cursor → Except Fault Value × Cursor)
    (byte : UInt8) (cursor : Cursor) : Except Fault Value × Cursor :=
  match Opcode.ofByte? byte with
  | some opcode => (opcode.handler world frame).run evaluate cursor
  | none => cursor.fail .invalidOpcode

/-- Evaluates the expression at the cursor, with room for so many nested opcodes. That there is no
room is noticed before what the opcode is. -/
def evaluate (world : World) (frame : Frame) : Nat → Cursor → Except Fault Value × Cursor
  | 0 => Cursor.readExpression fun _ => Cursor.fail .tooDeep
  | room + 1 => Cursor.readExpression fun byte =>
    Cursor.nested (dispatch world frame (evaluate world frame room) byte)

section
variable {opcode : UInt8 → Cursor → Except Fault Value × Cursor} {cursor : Cursor} {byte : UInt8}
  {rest : Bytes}

theorem Cursor.readExpression_nil (h : cursor.rest = []) :
    cursor.readExpression opcode = cursor.fail .codeOverrun := by
  rw [readExpression, readByte_nil h]
  rfl

theorem Cursor.readExpression_compact (h : cursor.rest = byte :: rest) (compact : compactBase ≤ byte) :
    cursor.readExpression opcode = (.ok (.int (compactValue byte)), { cursor with rest }) := by
  simp only [readExpression, readByte_cons h, if_pos compact]

theorem Cursor.readExpression_opcode (h : cursor.rest = byte :: rest)
    (large : ¬compactBase ≤ byte) :
    cursor.readExpression opcode = opcode byte { cursor with rest } := by
  simp only [readExpression, readByte_cons h, if_neg large]

end

section
variable {world : World} {frame : Frame} {evaluate : Cursor → Except Fault Value × Cursor}
  {byte : UInt8}

theorem dispatch_declared {opcode : Opcode} (h : Opcode.ofByte? byte = some opcode) :
    dispatch world frame evaluate byte = (opcode.handler world frame).run evaluate := by
  funext cursor
  rw [dispatch, h]

theorem dispatch_undeclared (h : Opcode.ofByte? byte = none) :
    dispatch world frame evaluate byte = Cursor.fail .invalidOpcode := by
  funext cursor
  rw [dispatch, h]

end

/-- Evaluation sees the world and the frame through the procedures of the opcodes. -/
theorem evaluate_congr {world world' : World} {frame frame' : Frame}
    (same : ∀ opcode : Opcode, opcode.handler world' frame' = opcode.handler world frame) :
    evaluate world' frame' = evaluate world frame := by
  have dispatched : dispatch world' frame' = dispatch world frame := by
    funext evaluate byte cursor
    simp only [dispatch, same]
  funext room
  induction room with
  | zero => rfl
  | succ room ih => rw [evaluate, evaluate, dispatched, ih]

theorem Procedure.run_value (evaluate : Cursor → Except Fault Value × Cursor) (cursor : Cursor) :
    value.run evaluate cursor = evaluate cursor := by
  simp only [value, run]
  split
  · next heq => exact heq.symm
  · next heq => exact heq.symm

/-- Running one procedure after another. -/
theorem Procedure.run_bind {α β : Type} (evaluate : Cursor → Except Fault Value × Cursor)
    (procedure : Procedure α) (f : α → Procedure β) (cursor : Cursor) :
    (procedure >>= f).run evaluate cursor =
      match procedure.run evaluate cursor with
      | (.ok a, cursor) => (f a).run evaluate cursor
      | (.error fault, cursor) => (.error fault, cursor) := by
  induction procedure generalizing cursor with
  | done | fail => rfl
  | immediate next ih =>
    simp only [immediate_bind, run]
    split
    · exact ih _ _
    · rfl
  | operand next ih =>
    simp only [operand_bind, run]
    split
    · exact ih _ _
    · rfl
  | draw sample next ih => exact ih _ _

end NodeScript
