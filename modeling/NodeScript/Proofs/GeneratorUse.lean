import NodeScript.Proofs.CursorVariation
import NodeScript.Proofs.DepthCounter
import NodeScript.Proofs.DrawlessExpression

/-!
# What uses the generator

The two opcodes that draw random numbers are the only ones that touch the generator. An evaluation
that starts neither of them, or only the one for integers and on bounds that are not positive, leaves
the generator as it was, whatever the code. The most recent fault is written and never looked at.
-/
namespace NodeScript

open Cursor

namespace Procedure

variable {α : Type} {evaluate : Cursor → Except Fault Value × Cursor}

/-- A procedure that draws nothing leaves the generator to the evaluations that it asks for. -/
theorem Drawless.run_generator {procedure : Procedure α} (drawless : procedure.Drawless)
    {start : Cursor} (kept : ∀ asked, procedure.Asks evaluate start asked →
      (evaluate asked).2.generator = asked.generator) :
    (procedure.run evaluate start).2.generator = start.generator := by
  induction drawless generalizing start with
  | done | fail => rfl
  | @immediate next rest ih =>
    cases read : Operand.read? start.rest with
    | none =>
      rw [run, readImmediate_none read]
      rfl
    | some operand =>
      have there := readImmediate_some read
      rw [run, there]
      exact ih operand.1 fun asked later => kept asked (.immediate there later)
  | @operand next rest ih =>
    have first := kept start (.here start)
    rw [run]
    cases evaluated : evaluate start with
    | mk result middle =>
      rw [evaluated] at first
      cases result with
      | error fault => exact first
      | ok v => exact (ih v fun asked later => kept asked (.operand evaluated later)).trans first

end Procedure

section
variable (world : World) (frame : Frame) (limit : Nat)

/-- An opcode whose procedure is started at the cursor does not draw: it is not the one for random
fractions, and if it is the one for random integers, its bound is not positive. -/
structure Opcode.Spares (opcode : Opcode) (started : Cursor) : Prop where
  ne_random : opcode ≠ .random
  bound : opcode = .randomInt → ∀ v after,
    evaluateWithin world frame limit started = (.ok v, after) → v.toInt32 ≤ 0

variable {world frame limit}

theorem Procedure.int32_bind {β : Type} (f : Int32 → Procedure β) :
    int32 >>= f = operand fun v => f v.toInt32 := rfl

section
variable {evaluate : Cursor → Except Fault Value × Cursor} {start : Cursor} {result : Value}
  {positive : Int32 → Procedure Value}

/-- What is behind a test whether a bound is positive does not matter on bounds that are not. -/
theorem Procedure.run_generator_of_bound
    (bound : ∀ v after, evaluate start = (.ok v, after) → v.toInt32 ≤ 0)
    (kept : (evaluate start).2.generator = start.generator) :
    ((int32 >>= fun n => if n ≤ 0 then done result else positive n).run evaluate
      start).2.generator = start.generator := by
  rw [int32_bind, run]
  cases evaluated : evaluate start with
  | mk result middle =>
    rw [evaluated] at kept
    cases result with
    | error fault => exact kept
    | ok v =>
      simp only [if_pos (bound v middle evaluated)]
      exact kept

theorem Procedure.eq_of_asks_of_bound {asked : Cursor}
    (bound : ∀ v after, evaluate start = (.ok v, after) → v.toInt32 ≤ 0)
    (asks : (int32 >>= fun n => if n ≤ 0 then done result else positive n).Asks evaluate start asked) :
    asked = start := by
  rw [int32_bind] at asks
  cases asks with
  | here => rfl
  | operand evaluated later =>
    simp only [if_pos (bound _ _ evaluated)] at later
    cases later

end

theorem Opcode.Spares.run_generator {opcode : Opcode} {started : Cursor}
    (spares : opcode.Spares world frame limit started)
    (kept : ∀ asked, (opcode.handler world frame).Asks (evaluateWithin world frame limit) started asked →
      (evaluateWithin world frame limit asked).2.generator = asked.generator) :
    ((opcode.handler world frame).run (evaluateWithin world frame limit) started).2.generator =
      started.generator := by
  cases draws : opcode.draws with
  | false => exact (Opcode.handler_drawless world frame draws).run_generator kept
  | true =>
    cases opcode with
    | random => exact absurd rfl spares.ne_random
    | randomInt =>
      exact Procedure.run_generator_of_bound (spares.bound rfl) (kept started (.here started))
    | _ => cases draws

/-- Reading the byte that an expression starts with leaves the generator to the opcodes. -/
theorem Cursor.readExpression_generator {opcode : UInt8 → Cursor → Except Fault Value × Cursor}
    {start : Cursor} (kept : ∀ byte rest, start.rest = byte :: rest → ¬compactBase ≤ byte →
      (opcode byte { start with rest }).2.generator = start.generator) :
    (start.readExpression opcode).2.generator = start.generator := by
  cases code : start.rest with
  | nil =>
    rw [readExpression_nil code]
    rfl
  | cons byte rest =>
    by_cases compact : compactBase ≤ byte
    · rw [readExpression_compact code compact]
    · rw [readExpression_opcode code compact]
      exact kept byte rest code compact

/-- A compact literal is evaluated on its own. -/
theorem Visits.eq_of_compact {start visited : Cursor} {active : Nat} {byte : UInt8} {rest : Bytes}
    (visits : Visits world frame limit start active visited) (code : start.rest = byte :: rest)
    (compact : compactBase ≤ byte) : visited = start := by
  cases visits with
  | here => rfl
  | within code' declared =>
    obtain ⟨rfl, rfl⟩ := List.cons.inj (code.symm.trans code')
    exact absurd compact (Opcode.not_compact_of_ofByte? declared)

/-- If no opcode that the evaluation starts draws, the generator is left alone. -/
theorem evaluateWithin_generator {start : Cursor}
    (spares : ∀ active visited byte rest opcode, Visits world frame limit start active visited →
      visited.rest = byte :: rest → Opcode.ofByte? byte = some opcode → visited.depth < limit →
      opcode.Spares world frame limit { visited with rest, depth := visited.depth + 1 }) :
    (evaluateWithin world frame limit start).2.generator = start.generator := by
  induction room : limit - start.depth generalizing start with
  | zero =>
    rw [evaluateWithin, room]
    exact readExpression_generator fun _ _ _ _ => rfl
  | succ room ih =>
    rw [evaluateWithin_eq]
    refine readExpression_generator fun byte rest code large => ?_
    have deeper : start.depth < limit := by omega
    rw [if_pos deeper]
    cases declared : Opcode.ofByte? byte with
    | none =>
      rw [dispatch_undeclared declared]
      rfl
    | some opcode =>
      have asked_spares := spares 0 start byte rest opcode (.here start) code declared deeper
      rw [dispatch_declared declared]
      refine asked_spares.run_generator fun asked asks => ih ?_ ?_
      · intro active visited byte' rest' opcode' visits
        exact spares (active + 1) visited byte' rest' opcode'
          (.within code declared deeper asks visits)
      · have balanced : asked.depth = start.depth + 1 := asks.succeeds CursorLaw.balanced_closed
          (CursorLaw.balanced_closed.governs_evaluateWithin world frame limit)
        omega

end

/-- Another most recent fault, which stays recorded until the action fails. -/
def CursorVariation.recorded : CursorVariation (Option Fault) where
  vary lastFault cursor := { cursor with lastFault }
  varyFailed _ cursor := cursor
  deeper := id

theorem CursorVariation.recorded_closed : CursorVariation.recorded.Closed where
  rest _ _ := rfl
  withRest _ _ _ := rfl
  generator _ _ := rfl
  withGenerator _ _ _ := rfl
  fail _ _ _ := rfl
  enter _ _ := rfl
  leave _ _ := rfl
  leaveFailed _ _ := rfl

namespace Engine

variable {α : Type} (engine : Engine) (frame : Frame) {procedure : Procedure α}

/-- If none of the opcodes that are started while a procedure is performed draws, and the procedure
itself does not, the engine's generator is left alone. -/
theorem perform_generator (drawless : procedure.Drawless)
    (spares : ∀ active opcode started, engine.Dispatches frame procedure active opcode started →
      opcode.Spares engine.toWorld frame engine.settings.maxDepth started) :
    (engine.perform frame procedure).2.2.generator = engine.generator := by
  rw [perform_eq_within]
  refine drawless.run_generator fun asked asks => evaluateWithin_generator ?_
  intro active visited byte rest opcode visits code declared room
  exact spares (active + 1) opcode _
    ⟨asked, visited, byte, rest, active, asks, visits, code, declared, room, rfl, rfl⟩

/-- What was recorded before has no part in what a procedure comes to. -/
theorem perform_withLastFault (procedure : Procedure α) (lastFault : Option Fault) :
    ∃ recorded, ({ engine with lastFault } : Engine).perform frame procedure =
      ((engine.perform frame procedure).1, (engine.perform frame procedure).2.1,
        { (engine.perform frame procedure).2.2 with lastFault := recorded }) := by
  let action := procedure.run (evaluate engine.toWorld frame (engine.settings.maxDepth - engine.depth))
  have carried : CursorVariation.recorded.CarriedBy action :=
    CursorVariation.recorded_closed.carriedBy_run
      (CursorVariation.recorded_closed.carriedBy_evaluate engine.toWorld frame _) procedure
  have there : action (({ engine with lastFault } : Engine).cursor frame) =
      CursorVariation.recorded.varyOutcome lastFault (action (engine.cursor frame)) :=
    carried lastFault (engine.cursor frame)
  change ∃ recorded, ({ engine with lastFault } : Engine).move frame action =
    ((engine.move frame action).1, (engine.move frame action).2.1,
      { (engine.move frame action).2.2 with lastFault := recorded })
  rw [move, move, there]
  obtain ⟨_ | _, stop⟩ := action (engine.cursor frame)
  · exact ⟨stop.lastFault, rfl⟩
  · exact ⟨lastFault, rfl⟩

end Engine
end NodeScript
