import NodeScript.Proofs.ExpressionExtent

/-!
# Positions in a function's code

Frames hold a position in the code of their function, and evaluation works on the code that is left
from there. Here the two views meet: where a complete expression starts and stops in the code, and
where the frame stands after an evaluation of it.
-/
namespace NodeScript

/-- The code of the frame's function, which is empty where the image has no such function. -/
def World.functionCode (world : World) (frame : Frame) : Bytes :=
  match world.image.function? frame.function with
  | some function => function.code
  | none => []

theorem World.code_eq_drop (world : World) (frame : Frame) :
    world.code frame = (world.functionCode frame).drop frame.pc := by
  rw [World.code, World.functionCode]
  cases world.image.function? frame.function with
  | none => exact List.drop_nil.symm
  | some function => rfl

/-- No opcode looks at the position. -/
theorem Opcode.handler_withPc (opcode : Opcode) (world : World) (frame : Frame) (pc : Nat) :
    opcode.handler world { frame with pc } = opcode.handler world frame := by
  cases opcode <;> rfl

/-- A complete expression that nests so many opcodes goes from `start` to `stop` in the code. -/
def ExpressionAt (code : Bytes) (start stop nesting : Nat) : Prop :=
  stop ≤ code.length ∧ Expressions 1 nesting (code.drop start) (code.drop stop)

namespace ExpressionAt

variable {code : Bytes} {start stop stop' nesting nesting' : Nat}

theorem lt (h : ExpressionAt code start stop nesting) : start < stop := by
  have shorter := h.2.length_lt
  have inside := h.1
  simp only [List.length_drop] at shorter
  omega

theorem unique (h : ExpressionAt code start stop nesting)
    (h' : ExpressionAt code start stop' nesting') : stop = stop' ∧ nesting = nesting' := by
  obtain ⟨same_nesting, same_rest⟩ := h.2.unique h'.2
  have same_length := congrArg List.length same_rest
  have inside := h.1
  have inside' := h'.1
  simp only [List.length_drop] at same_length
  exact ⟨by omega, same_nesting⟩

end ExpressionAt

namespace Engine

variable {α : Type} {action : Cursor → Except Fault α × Cursor}

theorem cursor_rest (engine : Engine) (frame : Frame) :
    (engine.cursor frame).rest = (engine.functionCode frame).drop frame.pc :=
  World.code_eq_drop engine.toWorld frame

/-- The code that is left at a byte is the byte and the code behind it. -/
theorem cursor_rest_cons {engine : Engine} {frame : Frame} {byte : UInt8}
    (code : (engine.functionCode frame)[frame.pc]? = some byte) : (engine.cursor frame).rest =
      byte :: (engine.cursor { frame with pc := frame.pc + 1 }).rest := by
  obtain ⟨inside, there⟩ := List.getElem?_eq_some_iff.1 code
  rw [cursor_rest, cursor_rest, List.drop_eq_getElem_cons inside, there]
  rfl

/-- An action that takes some code off the front moves the frame behind that code. -/
theorem move_of_taken {engine : Engine} {frame : Frame} {taken after : Bytes}
    {result : Except Fault α} {generator : Generator} {lastFault : Option Fault}
    (code : (engine.functionCode frame).drop frame.pc = taken ++ after)
    (stopped : action (engine.cursor frame) =
      (result, { engine.cursor frame with rest := after, generator, lastFault })) :
    engine.move frame action = (result, { frame with pc := frame.pc + taken.length },
      { engine with generator, lastFault }) := by
  have length : (engine.cursor frame).rest.length - after.length = taken.length := by
    rw [cursor_rest, code, List.length_append, Nat.add_sub_cancel]
  simp only [move, stopped, length]
  rfl

theorem evalValue_eq_move (engine : Engine) (frame : Frame) :
    engine.evalValue frame = engine.move frame
      (evaluate engine.toWorld frame (engine.settings.maxDepth - engine.depth)) := by
  rw [evalValue, perform, funext (Procedure.run_value _)]

/-- What a procedure does to its result in the end is done to the result of performing it. -/
theorem perform_bind_done {β : Type} (engine : Engine) (frame : Frame) (procedure : Procedure α)
    (f : α → β) : engine.perform frame (procedure >>= fun a => .done (f a)) =
      ((engine.perform frame procedure).1.map f, (engine.perform frame procedure).2) := by
  simp only [perform, move, Procedure.run_bind]
  obtain ⟨_ | _, stop⟩ := procedure.run (evaluate engine.toWorld frame
    (engine.settings.maxDepth - engine.depth)) (engine.cursor frame) <;> rfl

theorem move_pc (engine : Engine) (frame : Frame) (action : Cursor → Except Fault α × Cursor) :
    (engine.move frame action).2.1.pc = frame.pc +
      ((engine.cursor frame).rest.length - (action (engine.cursor frame)).2.rest.length) := rfl

theorem rest_suffix (forward : CursorLaw.forward.Governs action) (start : Cursor) :
    (action start).2.rest <:+ start.rest := by
  have h := forward start
  cases heq : action start with
  | mk result stop =>
    rw [heq] at h
    cases result <;> exact h

/-- The frame stays where it is or goes forward, but not beyond the end of the code, to where the
code is that the action left. -/
theorem move_forward (forward : CursorLaw.forward.Governs action) (engine : Engine) (frame : Frame) :
    frame.pc ≤ (engine.move frame action).2.1.pc ∧
      (engine.move frame action).2.1.pc ≤ max frame.pc (engine.functionCode frame).length ∧
      (engine.functionCode frame).drop (engine.move frame action).2.1.pc =
        (action (engine.cursor frame)).2.rest := by
  have start := engine.cursor_rest frame
  have suffix := rest_suffix forward (engine.cursor frame)
  have shorter := suffix.length_le
  have stop := List.suffix_iff_eq_drop.1 suffix
  have moved := engine.move_pc frame action
  rw [start, List.drop_drop] at stop
  rw [start] at shorter moved
  rw [moved]
  refine ⟨Nat.le_add_right _ _, ?_, stop.symm⟩
  simp only [List.length_drop] at shorter ⊢
  omega

variable (engine : Engine) (frame : Frame)

theorem evalValue_forward : frame.pc ≤ (engine.evalValue frame).2.1.pc ∧
    (engine.evalValue frame).2.1.pc ≤ max frame.pc (engine.functionCode frame).length := by
  rw [evalValue_eq_move]
  have moved := move_forward (CursorLaw.forward_closed.governs_evaluate engine.toWorld frame
    (engine.settings.maxDepth - engine.depth)) engine frame
  exact ⟨moved.1, moved.2.1⟩

/-- A success reads a complete expression that the limit on nesting leaves room for. -/
theorem expressionAt_of_evalValue_ok {v : Value} (h : (engine.evalValue frame).1 = .ok v) :
    ∃ nesting ≤ engine.settings.maxDepth - engine.depth,
      ExpressionAt (engine.functionCode frame) frame.pc (engine.evalValue frame).2.1.pc nesting := by
  rw [evalValue_eq_move] at h ⊢
  obtain ⟨-, inside, left⟩ := move_forward (CursorLaw.forward_closed.governs_evaluate
    engine.toWorld frame (engine.settings.maxDepth - engine.depth)) engine frame
  obtain ⟨nesting, le, one⟩ := (evaluate_readsExpressions engine.toWorld frame _).ok
    (Prod.ext h rfl)
  rw [← left] at one
  have start := engine.cursor_rest frame
  rw [start] at one
  have shorter := one.length_lt
  simp only [List.length_drop] at shorter
  exact ⟨nesting, le, by omega, one⟩

/-- A fault on a complete expression is no trouble with reading it but for a lack of room, and comes
before its end. -/
theorem evalValue_error {fault : Fault} {stop nesting : Nat}
    (complete : ExpressionAt (engine.functionCode frame) frame.pc stop nesting)
    (h : (engine.evalValue frame).1 = .error fault) :
    (fault.isReading = true →
        fault = .tooDeep ∧ engine.settings.maxDepth - engine.depth < nesting) ∧
      (engine.evalValue frame).2.1.pc ≤ stop := by
  have forward := evalValue_forward engine frame
  have inside := complete.1
  have before := complete.lt
  rw [evalValue_eq_move] at h forward ⊢
  obtain ⟨-, -, left⟩ := move_forward (CursorLaw.forward_closed.governs_evaluate
    engine.toWorld frame (engine.settings.maxDepth - engine.depth)) engine frame
  have start := engine.cursor_rest frame
  have one := complete.2
  rw [← start] at one
  obtain ⟨trouble, suffix⟩ := (evaluate_readsExpressions engine.toWorld frame _).error one
    (Prod.ext h rfl)
  rw [← left] at suffix
  have longer := suffix.length_le
  simp only [List.length_drop] at longer
  exact ⟨trouble, by omega⟩

/-- The tables of opcode shapes and the procedures of the opcodes agree on all code. A success has
read exactly the complete expression that the tables find at the frame's position. Where they find
one, the code does not end too early, holds no undeclared opcode and is not read beyond the
expression's end, also by an evaluation that fails. And whatever the code, the position only goes
forward and stays within the code. -/
theorem evalValue_extent :
    (∀ v, (engine.evalValue frame).1 = .ok v → ∀ stop,
      (∃ nesting, ExpressionAt (engine.functionCode frame) frame.pc stop nesting) ↔
        stop = (engine.evalValue frame).2.1.pc) ∧
    (∀ stop nesting, ExpressionAt (engine.functionCode frame) frame.pc stop nesting →
      (engine.evalValue frame).1 ≠ .error .codeOverrun ∧
        (engine.evalValue frame).1 ≠ .error .invalidOpcode ∧
        (engine.evalValue frame).2.1.pc ≤ stop) ∧
    frame.pc ≤ (engine.evalValue frame).2.1.pc ∧
    (∀ v, (engine.evalValue frame).1 = .ok v → frame.pc < (engine.evalValue frame).2.1.pc) ∧
    (engine.evalValue frame).2.1.pc ≤ max frame.pc (engine.functionCode frame).length := by
  obtain ⟨start_le, le_stop⟩ := evalValue_forward engine frame
  refine ⟨fun v h stop => ?_, fun stop nesting complete => ?_, start_le, fun v h => ?_, le_stop⟩
  · obtain ⟨nesting, -, complete⟩ := expressionAt_of_evalValue_ok engine frame h
    constructor
    · rintro ⟨nesting', complete'⟩
      exact (complete'.unique complete).1
    · rintro rfl
      exact ⟨nesting, complete⟩
  · cases h : (engine.evalValue frame).1 with
    | ok v =>
      obtain ⟨_, -, read⟩ := expressionAt_of_evalValue_ok engine frame h
      obtain ⟨rfl, -⟩ := complete.unique read
      exact ⟨by simp, by simp, Nat.le_refl _⟩
    | error fault =>
      obtain ⟨trouble, le⟩ := evalValue_error engine frame complete h
      refine ⟨?_, ?_, le⟩
      · rintro ⟨⟩
        cases (trouble rfl).1
      · rintro ⟨⟩
        cases (trouble rfl).1
  · obtain ⟨_, -, complete⟩ := expressionAt_of_evalValue_ok engine frame h
    exact complete.lt

/-- A success finds out how far the expression at the start of the code goes. -/
theorem evalValue_extent_complement :
    let code := Assembler.opcode (.unary .bitNot) ++ Assembler.opcode .literal ++ [0xF9, 3, 232, 0]
    let engine := start { Image.empty with functions := #[⟨"main", 0, 0, code⟩] } .standard 0
    (engine.evalValue ⟨0, 0, #[], #[], 0⟩).1 = .ok (.int (-1001)) ∧
      ∃ nesting, ExpressionAt code 0 5 nesting := by
  intro code engine
  have value : (engine.evalValue ⟨0, 0, #[], #[], 0⟩).1 = .ok (.int (-1001)) := rfl
  exact ⟨value, ((evalValue_extent engine _).1 _ value 5).2 rfl⟩

end Engine
end NodeScript
