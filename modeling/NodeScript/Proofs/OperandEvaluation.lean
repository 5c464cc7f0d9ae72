import NodeScript.Proofs.CursorVariation
import NodeScript.Proofs.NestingLimit

/-!
# Opcodes of one operand

What an opcode makes of its operand, on any code: where an expression evaluates to a value, the opcode
in front of it evaluates to what its procedure makes of that value, if the limit on nesting leaves room
for one opcode more.
-/
namespace NodeScript

namespace Cursor

/-- The action counts up and down from whatever the nesting counter is, and does not look at it. -/
def IgnoresDepth {α : Type} (action : Cursor → Except Fault α × Cursor) : Prop :=
  ∀ start depth, action { start with depth } = ((action start).1, { (action start).2 with depth })

end Cursor

/-- Another nesting counter, which is one higher inside of an opcode as well. -/
def CursorVariation.counter : CursorVariation Nat where
  vary depth cursor := { cursor with depth }
  varyFailed depth cursor := { cursor with depth }
  deeper depth := depth + 1

open Cursor

theorem CursorVariation.counter_closed : CursorVariation.counter.Closed where
  rest _ _ := rfl
  withRest _ _ _ := rfl
  generator _ _ := rfl
  withGenerator _ _ _ := rfl
  fail _ _ _ := rfl
  enter _ _ := rfl
  leave _ _ := rfl
  leaveFailed _ _ := rfl

theorem CursorVariation.CarriedBy.ignoresDepth {α : Type}
    {action : Cursor → Except Fault α × Cursor}
    (carried : CursorVariation.counter.CarriedBy action) : IgnoresDepth action := by
  intro start depth
  refine (carried depth start).trans ?_
  obtain ⟨_ | _, stop⟩ := action start <;> rfl

theorem ignoresDepth_run_evaluate {α : Type} (world : World) (frame : Frame) (room : Nat)
    (procedure : Procedure α) : IgnoresDepth (procedure.run (evaluate world frame room)) :=
  (CursorVariation.counter_closed.carriedBy_run
    (CursorVariation.counter_closed.carriedBy_evaluate world frame room) procedure).ignoresDepth

/-- Where there is room for what a complete expression nests it is not nested too deep. -/
theorem evaluate_ne_tooDeep (world : World) (frame : Frame) {room nesting : Nat} {start : Cursor}
    {rest : Bytes} (complete : Expressions 1 nesting start.rest rest) (enough : nesting ≤ room) :
    (evaluate world frame room start).1 ≠ .error .tooDeep := by
  intro failed
  obtain ⟨trouble, -⟩ := (evaluate_readsExpressions world frame room).error complete
    (Prod.ext failed rfl)
  have short := (trouble rfl).2
  omega

/-- The procedure that has come to a result. -/
def Procedure.ofResult {α : Type} : Except Fault α → Procedure α
  | .ok a => done a
  | .error fault => fail fault

theorem Procedure.run_ofResult {α : Type} (evaluate : Cursor → Except Fault Value × Cursor)
    (result : Except Fault α) (start : Cursor) :
    ((ofResult result).run evaluate start).1 = result := by
  cases result <;> rfl

section
variable {world : World} {frame : Frame} {room : Nat} {start : Cursor} {byte : UInt8} {rest : Bytes}
  {opcode : Opcode}

/-- An opcode lets its procedure run one opcode deeper at the code behind it, with room for one opcode
less. -/
theorem evaluate_opcode (code : start.rest = byte :: rest)
    (declared : Opcode.ofByte? byte = some opcode) : evaluate world frame (room + 1) start =
      nested ((opcode.handler world frame).run (evaluate world frame room)) { start with rest } := by
  rw [evaluate, readExpression_opcode code (Opcode.not_compact_of_ofByte? declared),
    dispatch_declared declared]

/-- The result does not depend on how deep the procedure runs. -/
theorem evaluate_fst_opcode (code : start.rest = byte :: rest)
    (declared : Opcode.ofByte? byte = some opcode) : (evaluate world frame (room + 1) start).1 =
      ((opcode.handler world frame).run (evaluate world frame room) { start with rest }).1 := by
  rw [evaluate_opcode code declared, nested_fst,
    ignoresDepth_run_evaluate world frame room _ { start with rest }]

end

namespace Engine

/-- At the frame's position stands the opcode, and behind it an expression that evaluates to `v` and,
with the opcode around it, is not nested too deep. -/
structure AppliesTo (engine : Engine) (frame : Frame) (opcode : Opcode) (v : Value) : Prop where
  code : (engine.functionCode frame)[frame.pc]? = some opcode.toByte
  operand : (engine.evalValue { frame with pc := frame.pc + 1 }).1 = .ok v
  room : ∃ stop nesting, ExpressionAt (engine.functionCode frame) (frame.pc + 1) stop nesting ∧
    engine.depth + nesting < engine.settings.maxDepth

variable {engine : Engine} {frame : Frame} {opcode : Opcode} {v : Value}

theorem evalValue_fst (engine : Engine) (frame : Frame) : (engine.evalValue frame).1 =
    (evaluate engine.toWorld frame (engine.settings.maxDepth - engine.depth)
      (engine.cursor frame)).1 := by
  rw [evalValue_eq_move]
  rfl

theorem evalValue_fst_opcode (code : (engine.functionCode frame)[frame.pc]? = some opcode.toByte)
    (room : engine.depth < engine.settings.maxDepth) : (engine.evalValue frame).1 =
      ((opcode.handler engine.toWorld frame).run
        (evaluate engine.toWorld frame (engine.settings.maxDepth - engine.depth - 1))
        (engine.cursor { frame with pc := frame.pc + 1 })).1 := by
  have enough : engine.settings.maxDepth - engine.depth =
      engine.settings.maxDepth - engine.depth - 1 + 1 := by omega
  rw [evalValue_fst, enough,
    evaluate_fst_opcode (cursor_rest_cons code) (Opcode.ofByte?_toByte opcode)]
  rfl

/-- The opcode at the frame's position comes to its result if it asks for nothing. -/
theorem evalValue_fst_of_settled {result : Except Fault Value}
    (code : (engine.functionCode frame)[frame.pc]? = some opcode.toByte)
    (room : engine.depth < engine.settings.maxDepth)
    (settles : opcode.handler engine.toWorld frame = .ofResult result) :
    (engine.evalValue frame).1 = result := by
  rw [evalValue_fst_opcode code room, settles, Procedure.run_ofResult]

/-- Inside of the opcode the operand evaluates as it does alone. -/
theorem AppliesTo.operand_inside (applies : engine.AppliesTo frame opcode v) :
    (evaluate engine.toWorld frame (engine.settings.maxDepth - engine.depth - 1)
      (engine.cursor { frame with pc := frame.pc + 1 })).1 = .ok v := by
  obtain ⟨stop, nesting, complete, enough⟩ := applies.room
  have operand := applies.operand
  have fine := evaluate_ne_tooDeep engine.toWorld frame
    ((engine.cursor_rest { frame with pc := frame.pc + 1 }).symm ▸ complete.2)
    (show nesting ≤ engine.settings.maxDepth - engine.depth - 1 by omega)
  rw [evalValue_fst, evaluate_congr fun opcode => opcode.handler_withPc engine.toWorld frame _,
    evaluate_eq_of_not_tooDeep engine.toWorld frame
      (Nat.sub_le (engine.settings.maxDepth - engine.depth) 1) fine] at operand
  exact operand

/-- The opcode comes to what its procedure makes of the operand's value. -/
theorem AppliesTo.evalValue_fst_eq (applies : engine.AppliesTo frame opcode v)
    {next : Value → Procedure Value} {result : Except Fault Value}
    (asks : opcode.handler engine.toWorld frame = .operand next)
    (settles : next v = .ofResult result) : (engine.evalValue frame).1 = result := by
  obtain ⟨stop, nesting, complete, enough⟩ := applies.room
  have operand := applies.operand_inside
  rw [evalValue_fst_opcode applies.code (Nat.lt_of_le_of_lt (Nat.le_add_right _ _) enough), asks,
    Procedure.run]
  cases evaluated : evaluate engine.toWorld frame (engine.settings.maxDepth - engine.depth - 1)
      (engine.cursor { frame with pc := frame.pc + 1 }) with
  | mk answer stop =>
    rw [evaluated] at operand
    obtain rfl : answer = .ok v := operand
    simp only [settles, Procedure.run_ofResult]

end Engine
end NodeScript
