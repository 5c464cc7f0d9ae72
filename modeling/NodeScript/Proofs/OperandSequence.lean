import NodeScript.Proofs.HandleChecks

/-!
# Operands one after another

What an opcode with several operands comes to, on any code and with any engine. The operands are
evaluated in their order, each of them by the engine and at the position that the one before has left,
and the first fault stops the opcode. Among the operands are buffers, of which the bytes are wanted.
-/
namespace NodeScript

open Cursor

/-- The value is a buffer with these bytes: the payload of the packet or a byte string of the image. -/
def World.IsBuffer (world : World) (v : Value) (bytes : Bytes) : Prop :=
  v = .packetBuffer ∧ bytes = world.packet.payload ∨
    ∃ index, v = .handle .imageBuffer index ∧ world.image.string? index = some bytes

section
variable {world : World} {v : Value} {bytes : Bytes}

theorem World.IsBuffer.bytes?_eq (buffer : world.IsBuffer v bytes) :
    world.bytes? v = some bytes := by
  obtain ⟨rfl, rfl⟩ | ⟨index, rfl, entry⟩ := buffer
  · rfl
  · exact entry

theorem World.IsBuffer.bufferOf_eq (buffer : world.IsBuffer v bytes) :
    world.image.bufferOf v = .ok v := by
  obtain ⟨rfl, -⟩ | ⟨index, rfl, entry⟩ := buffer
  · exact Image.bufferOf_packetBuffer
  · obtain ⟨inside, -⟩ := Array.getElem?_eq_some_iff.1 entry
    exact Image.bufferOf_eq_ok_iff.2 ⟨rfl, .inr ⟨index, rfl, inside⟩⟩

/-- What is accepted as a buffer is one. -/
theorem World.exists_isBuffer {w : Value} (accepted : world.image.bufferOf v = .ok w) :
    ∃ bytes, world.IsBuffer v bytes := by
  obtain ⟨-, rfl | ⟨index, rfl, inside⟩⟩ := Image.bufferOf_eq_ok_iff.1 accepted
  · exact ⟨_, .inl ⟨rfl, rfl⟩⟩
  · exact ⟨_, .inr ⟨index, rfl, Array.getElem?_eq_getElem inside⟩⟩

end

namespace Engine

variable {α β : Type}

/-- The answer of an action that stops at a position of the code. -/
def reached (engine : Engine) (frame : Frame) (pc : Nat) (outcome : Except Fault α × Cursor) :
    Except Fault α × Frame × Engine :=
  (outcome.1, { frame with pc }, { engine with
    depth := outcome.2.depth
    generator := outcome.2.generator
    lastFault := outcome.2.lastFault })

/-- The cursor goes on where the action left it. -/
theorem cursor_move {action : Cursor → Except Fault α × Cursor}
    (forward : CursorLaw.forward.Governs action) (engine : Engine) (frame : Frame) :
    (engine.move frame action).2.2.cursor (engine.move frame action).2.1 =
      (action (engine.cursor frame)).2 := by
  have left := (move_forward forward engine frame).2.2
  have code := (engine.move frame action).2.2.cursor_rest (engine.move frame action).2.1
  exact congrArg (fun rest : Bytes => { (action (engine.cursor frame)).2 with rest }) (code.trans left)

/-- An action from where another one stopped, seen from where that one started. -/
theorem move_move {first : Cursor → Except Fault α × Cursor} {second : Cursor → Except Fault β × Cursor}
    (forward : CursorLaw.forward.Governs first) (forward' : CursorLaw.forward.Governs second)
    (engine : Engine) (frame : Frame) :
    (engine.move frame first).2.2.move (engine.move frame first).2.1 second =
      engine.move frame fun start => second (first start).2 := by
  have stop := cursor_move forward engine frame
  have shorter := (rest_suffix forward (engine.cursor frame)).length_le
  have shorter' := (rest_suffix forward' (first (engine.cursor frame)).2).length_le
  have pc : ((engine.move frame first).2.2.move (engine.move frame first).2.1 second).2.1.pc =
      (engine.move frame fun start => second (first start).2).2.1.pc := by
    rw [move_pc, move_pc, move_pc, stop]
    omega
  have answer := congr (congrArg (@reached β engine frame) pc) (congrArg second stop)
  exact answer

theorem forward_run_evaluate (engine : Engine) (frame : Frame) (procedure : Procedure α) :
    CursorLaw.forward.Governs
      (procedure.run (evaluate engine.toWorld frame (engine.settings.maxDepth - engine.depth))) :=
  CursorLaw.forward_closed.governs_run_evaluate engine.toWorld frame _ procedure

/-- What comes after a procedure is evaluated with the same room. -/
theorem perform_after (engine : Engine) (frame : Frame) (procedure : Procedure α)
    (next : Procedure β) :
    (engine.perform frame procedure).2.2.perform (engine.perform frame procedure).2.1 next =
      engine.move frame fun start =>
        next.run (evaluate engine.toWorld frame (engine.settings.maxDepth - engine.depth))
          (procedure.run (evaluate engine.toWorld frame (engine.settings.maxDepth - engine.depth))
            start).2 := by
  let after := (engine.perform frame procedure).2
  have same : evaluate after.2.toWorld after.1 (after.2.settings.maxDepth - after.2.depth) =
      evaluate engine.toWorld frame (engine.settings.maxDepth - engine.depth) := by
    rw [engine.perform_depth frame procedure]
    exact congrFun (evaluate_congr fun opcode => opcode.handler_withPc engine.toWorld frame _) _
  have moved := move_move (engine.forward_run_evaluate frame procedure)
    (engine.forward_run_evaluate frame next) engine frame
  exact (congrArg (fun evaluate => after.2.move after.1 (next.run evaluate)) same).trans moved

/-- Performing one procedure after another. The second one finds the frame and the engine as the first
one left them. -/
theorem perform_bind_ok {engine : Engine} {frame : Frame} {procedure : Procedure α} {a : α}
    {after : Frame × Engine} (performed : engine.perform frame procedure = (.ok a, after))
    (f : α → Procedure β) :
    engine.perform frame (procedure >>= f) = after.2.perform after.1 (f a) := by
  have together := engine.perform_after frame procedure (f a)
  rw [performed] at together
  rw [together, perform]
  refine engine.move_congr frame ?_
  have answer := congrArg Prod.fst performed
  simp only [perform, move] at answer
  rw [Procedure.run_bind]
  split
  · next b stop first =>
    rw [first] at answer ⊢
    cases answer
    rfl
  · next fault stop first =>
    rw [first] at answer
    cases answer

/-- The fault of a procedure stops what comes after it. -/
theorem perform_bind_error {engine : Engine} {frame : Frame} {procedure : Procedure α} {fault : Fault}
    {after : Frame × Engine} (performed : engine.perform frame procedure = (.error fault, after))
    (f : α → Procedure β) : engine.perform frame (procedure >>= f) = (.error fault, after) := by
  simp only [perform, move, Procedure.run_bind] at performed ⊢
  split
  · next b stop first =>
    rw [first] at performed
    cases performed
  · next fault' stop first =>
    rw [first] at performed
    cases performed
    rfl

theorem perform_done (engine : Engine) (frame : Frame) (a : α) :
    engine.perform frame (.done a) = (.ok a, frame, engine) := by
  simp only [perform, move, Procedure.run, Nat.sub_self, Nat.add_zero]
  rfl

theorem perform_fail (engine : Engine) (frame : Frame) (fault : Fault) :
    engine.perform frame (.fail fault : Procedure α) = (.error fault, frame, engine.fail fault) := by
  simp only [perform, move, Procedure.run, Cursor.fail, Nat.sub_self, Nat.add_zero]
  rfl

/-- The engine inside of an opcode, which counts as one more. -/
def entered (engine : Engine) : Engine := { engine with depth := engine.depth + 1 }

/-- What an opcode comes to when its procedure has come to this. -/
def left (answer : Except Fault α × Frame × Engine) : Except Fault α × Frame × Engine :=
  (answer.1, answer.2.1, { answer.2.2 with depth := answer.2.2.depth - 1 })

/-- An action inside of an opcode, seen from the opcode's byte. -/
theorem move_nested {engine : Engine} {frame : Frame} {byte : UInt8}
    {action : Cursor → Except Fault α × Cursor} (forward : CursorLaw.forward.Governs action)
    (code : (engine.functionCode frame)[frame.pc]? = some byte) :
    engine.move frame (fun start => nested action { start with rest := start.rest.tail }) =
      left (engine.entered.move { frame with pc := frame.pc + 1 } action) := by
  let behind : Frame := { frame with pc := frame.pc + 1 }
  have rest := cursor_rest_cons code
  have evaluated : nested action { engine.cursor frame with rest := (engine.cursor frame).rest.tail } =
      nested action (engine.cursor behind) :=
    congrArg (fun rest : Bytes => nested action { engine.cursor frame with rest := rest.tail }) rest
  have shorter := (rest_suffix forward (engine.entered.cursor behind)).length_le
  have pc : (engine.move frame fun start =>
      nested action { start with rest := start.rest.tail }).2.1.pc =
        (engine.entered.move behind action).2.1.pc := by
    have longer : (engine.cursor frame).rest.length =
        (engine.entered.cursor behind).rest.length + 1 := congrArg List.length rest
    rw [move_pc, move_pc, evaluated]
    change frame.pc + ((engine.cursor frame).rest.length -
      (action (engine.entered.cursor behind)).2.rest.length) = frame.pc + 1 +
        ((engine.entered.cursor behind).rest.length -
          (action (engine.entered.cursor behind)).2.rest.length)
    omega
  have answer := congr (congrArg (@reached α engine frame) pc) evaluated
  exact answer

/-- An opcode at the frame's position is evaluated by performing its procedure on the code behind it. -/
theorem evalValue_opcode {engine : Engine} {frame : Frame} {opcode : Opcode}
    (code : (engine.functionCode frame)[frame.pc]? = some opcode.toByte)
    (room : engine.depth < engine.settings.maxDepth) : engine.evalValue frame =
      left (engine.entered.perform { frame with pc := frame.pc + 1 }
        (opcode.handler engine.toWorld frame)) := by
  let behind : Frame := { frame with pc := frame.pc + 1 }
  let inner := evaluate engine.toWorld frame (engine.settings.maxDepth - (engine.depth + 1))
  have rest := cursor_rest_cons code
  have enough : engine.settings.maxDepth - engine.depth =
      engine.settings.maxDepth - (engine.depth + 1) + 1 := by omega
  have evaluated : evaluate engine.toWorld frame (engine.settings.maxDepth - engine.depth)
      (engine.cursor frame) = nested ((opcode.handler engine.toWorld frame).run inner)
        { engine.cursor frame with rest := (engine.cursor frame).rest.tail } := by
    rw [enough, evaluate_opcode rest (Opcode.ofByte?_toByte opcode), rest]
    rfl
  -- The procedure runs with the frame behind the opcode, and no procedure looks at the position.
  have same : evaluate engine.entered.toWorld behind
      (engine.entered.settings.maxDepth - engine.entered.depth) = inner :=
    congrFun (evaluate_congr fun opcode => opcode.handler_withPc engine.toWorld frame _) _
  let action := (opcode.handler engine.toWorld frame).run inner
  have entering : engine.evalValue frame =
      engine.move frame fun start => nested action { start with rest := start.rest.tail } :=
    (engine.evalValue_eq_move frame).trans (engine.move_congr frame evaluated)
  have forward : CursorLaw.forward.Governs action :=
    CursorLaw.forward_closed.governs_run_evaluate _ _ _ _
  rw [entering, move_nested forward code, perform, same]

/-- What is read off the value of an expression. -/
theorem perform_value_ok {engine : Engine} {frame : Frame} {v : Value} {after : Frame × Engine}
    (evaluated : engine.evalValue frame = (.ok v, after)) (f : Value → α) :
    engine.perform frame (.value >>= fun v => .done (f v)) = (.ok (f v), after) := by
  have answer := engine.perform_bind_done frame .value f
  rwa [show engine.perform frame .value = (.ok v, after) from evaluated] at answer

theorem perform_int32_ok {engine : Engine} {frame : Frame} {v : Value} {after : Frame × Engine}
    (evaluated : engine.evalValue frame = (.ok v, after)) :
    engine.perform frame .int32 = (.ok v.toInt32, after) :=
  perform_value_ok evaluated Value.toInt32

theorem perform_uint32_ok {engine : Engine} {frame : Frame} {v : Value} {after : Frame × Engine}
    (evaluated : engine.evalValue frame = (.ok v, after)) :
    engine.perform frame .uint32 = (.ok v.toInt32.toUInt32, after) :=
  perform_value_ok evaluated fun v => v.toInt32.toUInt32

theorem perform_uint32_error {engine : Engine} {frame : Frame} {fault : Fault}
    {after : Frame × Engine} (evaluated : engine.evalValue frame = (.error fault, after)) :
    engine.perform frame .uint32 = (.error fault, after) :=
  perform_bind_error evaluated _

/-- A buffer's value is handed on. -/
theorem perform_buffer_ok {engine : Engine} {frame : Frame} {v : Value} {bytes : Bytes}
    {after : Frame × Engine} (evaluated : engine.evalValue frame = (.ok v, after))
    (buffer : engine.IsBuffer v bytes) :
    engine.perform frame (.buffer engine.toWorld) = (.ok v, after) := by
  rw [Procedure.buffer_eq, perform_check, evaluated]
  simp only [checked, buffer.bufferOf_eq]

theorem perform_buffer_error {engine : Engine} {frame : Frame} {fault : Fault}
    {after : Frame × Engine} (evaluated : engine.evalValue frame = (.error fault, after)) :
    engine.perform frame (.buffer engine.toWorld) = (.error fault, after) :=
  evalBuffer_checks.fault evaluated

/-- A value that is no buffer is refused before anything else is evaluated. -/
theorem perform_buffer_refused {engine : Engine} {frame : Frame} {v : Value} {fault : Fault}
    {after : Frame × Engine} (evaluated : engine.evalValue frame = (.ok v, after))
    (refused : engine.image.bufferOf v = .error fault) :
    engine.perform frame (.buffer engine.toWorld) =
      (.error fault, after.1, after.2.fail fault) := by
  rw [Procedure.buffer_eq, perform_check, evaluated]
  simp only [checked, refused]

end Engine
end NodeScript
