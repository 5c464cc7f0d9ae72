import NodeScript.Proofs.DepthCounter
import NodeScript.Proofs.DrawlessExpression
import NodeScript.Proofs.FramePosition

/-!
# Evaluation only reads

An evaluation moves the frame's position, may draw from the generator and may record a fault, and
changes nothing else. So an expression that draws nothing has the same outcome before and after it.
-/
namespace NodeScript

open Cursor Procedure

namespace Engine

/-- The frame and the engine are as they were but for the position of the frame, the generator and
the most recent fault. -/
def OnlyReads (engine : Engine) (frame : Frame) (after : Frame × Engine) : Prop :=
  ∃ pc generator lastFault, after = ({ frame with pc }, { engine with generator, lastFault })

/-- Both evaluations give the same result or fault, and leave the frame in the same state. -/
def SameOutcome {α : Type} (one other : Except Fault α × Frame × Engine) : Prop :=
  one.1 = other.1 ∧ one.2.1 = other.2.1

variable {α : Type} {engine : Engine} {frame : Frame} {after : Frame × Engine}

theorem OnlyReads.toWorld_eq (reads : engine.OnlyReads frame after) :
    after.2.toWorld = engine.toWorld := by
  obtain ⟨_, _, _, rfl⟩ := reads
  rfl

theorem perform_onlyReads (engine : Engine) (frame : Frame) (procedure : Procedure α) :
    engine.OnlyReads frame (engine.perform frame procedure).2 := by
  have depth := engine.perform_depth frame procedure
  refine ⟨_, (engine.perform frame procedure).2.2.generator,
    (engine.perform frame procedure).2.2.lastFault, Prod.ext rfl ?_⟩
  -- The depth is the one field beside the two that an evaluation writes.
  simp only [perform, move] at depth ⊢
  rw [depth]

/-- The most recent fault after a result, where it was `lastFault` before. -/
def recordAfter (lastFault : Option Fault) : Except Fault α → Option Fault
  | .ok _ => lastFault
  | .error fault => some fault

theorem recordAfter_recordAfter (lastFault : Option Fault) (result : Except Fault α) :
    recordAfter (recordAfter lastFault result) result = recordAfter lastFault result := by
  cases result <;> rfl

/-- With whatever generator and most recent fault it starts, a procedure on expressions that draw
nothing leaves the generator alone, records its fault if it has one, and comes to the same. -/
theorem perform_with {procedure : Procedure α} {count : Nat} (shape : procedure.HasShape false count)
    (drawless : procedure.Drawless) {rest : Bytes}
    (expressions : DrawlessExpressions count ((engine.functionCode frame).drop frame.pc) rest)
    (generator : Generator) (lastFault : Option Fault) :
    ({ engine with generator, lastFault } : Engine).perform frame procedure =
      ((engine.perform frame procedure).1, (engine.perform frame procedure).2.1,
        { (engine.perform frame procedure).2.2 with
          generator
          lastFault := recordAfter lastFault (engine.perform frame procedure).1 }) := by
  rw [← cursor_rest] at expressions
  let action := procedure.run (evaluate engine.toWorld frame (engine.settings.maxDepth - engine.depth))
  have indifferent : Indifferent action (engine.cursor frame) :=
    shape.indifferent_run (evaluate_readsExpressions engine.toWorld frame _)
      (indifferent_evaluate engine.toWorld frame) drawless rfl expressions
  have same : action (({ engine with generator, lastFault } : Engine).cursor frame) =
      transferred generator lastFault (action (engine.cursor frame)) :=
    indifferent generator lastFault
  change ({ engine with generator, lastFault } : Engine).move frame action =
    ((engine.move frame action).1, (engine.move frame action).2.1,
      { (engine.move frame action).2.2 with
        generator
        lastFault := recordAfter lastFault (engine.move frame action).1 })
  rw [move, move, same]
  obtain ⟨_ | _, stop⟩ := action (engine.cursor frame) <;> rfl

/-- A procedure on expressions that draw nothing has the same outcome after evaluations on the frame,
once the frame is back at its position. -/
theorem sameOutcome_perform (reads : engine.OnlyReads frame after) {procedure : Procedure α}
    {count : Nat} (shape : procedure.HasShape false count) (drawless : procedure.Drawless)
    {pc : Nat} {rest : Bytes}
    (expressions : DrawlessExpressions count ((engine.functionCode frame).drop pc) rest) :
    SameOutcome (after.2.perform { after.1 with pc } procedure)
      (engine.perform { frame with pc } procedure) := by
  obtain ⟨_, generator, lastFault, rfl⟩ := reads
  have same := @perform_with _ engine { frame with pc } _ _ shape drawless rest expressions
    generator lastFault
  have result := congrArg (fun outcome => outcome.1) same
  have stop := congrArg (fun outcome => outcome.2.1) same
  exact ⟨result, stop⟩

/-- The evaluation, of `count` expressions, changes nothing but what evaluations may change. Where it is
to evaluate expressions that draw nothing, it has the same outcome after whatever has only read. -/
structure IsReadOnly (count : Nat) (evaluation : Engine → Frame → Except Fault α × Frame × Engine) :
    Prop where
  onlyReads (engine : Engine) (frame : Frame) : engine.OnlyReads frame (evaluation engine frame).2
  repeats (engine : Engine) (frame : Frame) (after : Frame × Engine)
    (reads : engine.OnlyReads frame after) (pc : Nat) (rest : Bytes)
    (drawless : DrawlessExpressions count ((engine.functionCode frame).drop pc) rest) :
    SameOutcome (evaluation after.2 { after.1 with pc }) (evaluation engine { frame with pc })

theorem isReadOnly_perform {count : Nat} {procedure : World → Procedure α}
    (shape : ∀ world, (procedure world).HasShape false count)
    (drawless : ∀ world, (procedure world).Drawless) :
    IsReadOnly count fun engine frame => engine.perform frame (procedure engine.toWorld) where
  onlyReads engine frame := engine.perform_onlyReads frame _
  repeats engine frame after reads pc rest expressions := by
    rw [reads.toWorld_eq]
    exact sameOutcome_perform reads (shape _) (drawless _) expressions

/-- Evaluating on a frame only reads, whatever the code and whether it succeeds or fails: the engine
and the frame are as before but for the frame's position, the generator and the most recent fault. So
after any such evaluation, also one that failed, an expression that draws nothing has the outcome
that it had before, from wherever the frame is then moved to it. -/
theorem evaluation_onlyReads : EveryEvaluation IsReadOnly where
  value := isReadOnly_perform (fun _ => value_shape) fun _ => .value
  pair := isReadOnly_perform (fun _ => pair_shape) fun _ => .pair
  uint32 := isReadOnly_perform (fun _ => uint32_shape) fun _ => .uint32
  int32 := isReadOnly_perform (fun _ => int32_shape) fun _ => .int32
  binary64 := isReadOnly_perform (fun _ => binary64_shape) fun _ => .binary64
  buffer := isReadOnly_perform buffer_shape .buffer
  bufferBytes := isReadOnly_perform bufferBytes_shape .bufferBytes
  stringIndex := isReadOnly_perform stringIndex_shape .stringIndex
  roleIndex := isReadOnly_perform roleIndex_shape .roleIndex
  objectIndex := isReadOnly_perform (fun _ => objectIndex_shape) fun _ => .objectIndex

/-- After a fault behind a random number, the literal in front still has its value. -/
theorem evaluation_onlyReads_literal :
    let code := Assembler.withImmediate .literal 200 ++ Assembler.opcode (.binary .add) ++
      Assembler.opcode .randomInt ++ Assembler.integer 6 ++ Assembler.opcode .invalid
    let engine := start { Image.empty with functions := #[⟨"main", 0, 0, code⟩] } .standard 0
    let after := (engine.evalValue ⟨0, 2, #[], #[], 0⟩).2
    (engine.evalValue ⟨0, 2, #[], #[], 0⟩).1 = .error .invalidExpression ∧
      (after.2.evalValue { after.1 with pc := 0 }).1 = .ok (.int 200) := by
  intro code engine after
  have isReadOnly := evaluation_onlyReads.value
  have reads := isReadOnly.onlyReads engine ⟨0, 2, #[], #[], 0⟩
  have literal : DrawlessExpressions 1 code (code.drop 2) :=
    .opcode (show Opcode.ofByte? 5 = some .literal from rfl) rfl ⟨200, [], rfl, rfl⟩ (.none _)
      (.none _)
  have same := (isReadOnly.repeats engine ⟨0, 2, #[], #[], 0⟩ after reads 0 _ literal).1
  exact ⟨rfl, same.trans rfl⟩

end Engine
end NodeScript
