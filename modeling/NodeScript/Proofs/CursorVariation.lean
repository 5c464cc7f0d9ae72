import NodeScript.Evaluator

/-!
# Varying the cursor

Some of what a cursor holds is carried along and never looked at. A variation says how another cursor
of the kind differs at the start of an action and where the action stops. A variation that the steps
of evaluation carry along is carried along by the run of every procedure and by the evaluation of
every code.
-/
namespace NodeScript

/-- How the cursors of an action are varied, where it starts and succeeds and where it fails. -/
structure CursorVariation (ι : Type) where
  vary : ι → Cursor → Cursor
  varyFailed : ι → Cursor → Cursor
  /-- How the cursors of an action that is nested in it are varied. -/
  deeper : ι → ι

namespace CursorVariation

variable {ι α : Type}

def varyOutcome (variation : CursorVariation ι) (i : ι) :
    Except Fault α × Cursor → Except Fault α × Cursor
  | (.ok a, stop) => (.ok a, variation.vary i stop)
  | (.error fault, stop) => (.error fault, variation.varyFailed i stop)

/-- From the varied cursor the action comes to the same, at the varied cursor. -/
def CarriedBy (variation : CursorVariation ι) (action : Cursor → Except Fault α × Cursor) : Prop :=
  ∀ i start, action (variation.vary i start) = variation.varyOutcome i (action start)

/-- The steps that evaluation is made of carry the variation along. -/
structure Closed (variation : CursorVariation ι) : Prop where
  rest : ∀ i cursor, (variation.vary i cursor).rest = cursor.rest
  withRest : ∀ i cursor rest,
    { variation.vary i cursor with rest } = variation.vary i { cursor with rest }
  generator : ∀ i cursor, (variation.vary i cursor).generator = cursor.generator
  withGenerator : ∀ i cursor generator,
    { variation.vary i cursor with generator } = variation.vary i { cursor with generator }
  fail : ∀ i fault cursor, { variation.vary i cursor with lastFault := some fault } =
    variation.varyFailed i { cursor with lastFault := some fault }
  enter : ∀ i cursor, { variation.vary i cursor with depth := (variation.vary i cursor).depth + 1 } =
    variation.vary (variation.deeper i) { cursor with depth := cursor.depth + 1 }
  leave : ∀ i cursor, { variation.vary (variation.deeper i) cursor with
      depth := (variation.vary (variation.deeper i) cursor).depth - 1 } =
    variation.vary i { cursor with depth := cursor.depth - 1 }
  leaveFailed : ∀ i cursor, { variation.varyFailed (variation.deeper i) cursor with
      depth := (variation.varyFailed (variation.deeper i) cursor).depth - 1 } =
    variation.varyFailed i { cursor with depth := cursor.depth - 1 }

variable {variation : CursorVariation ι}

theorem Closed.carriedBy_fail (closed : variation.Closed) (fault : Fault) :
    variation.CarriedBy (Cursor.fail fault : Cursor → Except Fault α × Cursor) :=
  fun i start => Prod.ext rfl (closed.fail i fault start)

theorem Closed.carriedBy_nested (closed : variation.Closed)
    {action : Cursor → Except Fault α × Cursor} (carried : variation.CarriedBy action) :
    variation.CarriedBy (Cursor.nested action) := by
  intro i start
  rw [Cursor.nested, Cursor.nested, closed.enter, carried]
  obtain ⟨_ | _, stop⟩ := action { start with depth := start.depth + 1 }
  · exact Prod.ext rfl (closed.leaveFailed i stop)
  · exact Prod.ext rfl (closed.leave i stop)

theorem Closed.carriedBy_readImmediate (closed : variation.Closed) :
    variation.CarriedBy Cursor.readImmediate := by
  intro i start
  have code := closed.rest i start
  cases read : Operand.read? start.rest with
  | none =>
    rw [Cursor.readImmediate_none read, Cursor.readImmediate_none (code ▸ read), closed.withRest]
    exact closed.carriedBy_fail _ i { start with rest := [] }
  | some operand =>
    rw [Cursor.readImmediate_some read, Cursor.readImmediate_some (code ▸ read), closed.withRest]
    rfl

theorem Closed.carriedBy_readExpression (closed : variation.Closed)
    {opcode : UInt8 → Cursor → Except Fault Value × Cursor}
    (carried : ∀ byte, variation.CarriedBy (opcode byte)) :
    variation.CarriedBy (Cursor.readExpression opcode) := by
  intro i start
  have there := closed.rest i start
  cases code : start.rest with
  | nil =>
    rw [Cursor.readExpression_nil code, Cursor.readExpression_nil (there.trans code)]
    exact closed.carriedBy_fail _ i start
  | cons byte rest =>
    by_cases compact : compactBase ≤ byte
    · rw [Cursor.readExpression_compact code compact,
        Cursor.readExpression_compact (there.trans code) compact, closed.withRest]
      rfl
    · rw [Cursor.readExpression_opcode code compact,
        Cursor.readExpression_opcode (there.trans code) compact, closed.withRest]
      exact carried byte i { start with rest }

theorem Closed.carriedBy_run (closed : variation.Closed)
    {evaluate : Cursor → Except Fault Value × Cursor} (carried : variation.CarriedBy evaluate)
    (procedure : Procedure α) : variation.CarriedBy (procedure.run evaluate) := by
  induction procedure with
  | done result => exact fun _ _ => rfl
  | fail fault => exact closed.carriedBy_fail fault
  | immediate next ih =>
    intro i start
    rw [Procedure.run, Procedure.run, closed.carriedBy_readImmediate]
    cases start.readImmediate with
    | mk result stop =>
      cases result with
      | error fault => rfl
      | ok n => exact ih n i stop
  | operand next ih =>
    intro i start
    rw [Procedure.run, Procedure.run, carried]
    cases evaluate start with
    | mk result stop =>
      cases result with
      | error fault => rfl
      | ok v => exact ih v i stop
  | draw sample next ih =>
    intro i start
    rw [Procedure.run_draw, Procedure.run_draw, closed.generator, closed.withGenerator]
    exact ih _ i _

/-- Evaluation carries along what its steps carry along. -/
theorem Closed.carriedBy_evaluate (closed : variation.Closed) (world : World) (frame : Frame)
    (room : Nat) : variation.CarriedBy (evaluate world frame room) := by
  induction room with
  | zero => exact closed.carriedBy_readExpression fun _ => closed.carriedBy_fail _
  | succ room ih =>
    refine closed.carriedBy_readExpression fun byte => closed.carriedBy_nested ?_
    cases declared : Opcode.ofByte? byte with
    | none =>
      rw [dispatch_undeclared declared]
      exact closed.carriedBy_fail _
    | some opcode =>
      rw [dispatch_declared declared]
      exact closed.carriedBy_run ih _

end CursorVariation
end NodeScript
