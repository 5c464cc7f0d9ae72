import NodeScript.Proofs.GeneratorUse
import NodeScript.Proofs.ReadOnlyEvaluation

/-!
# Reproducible runs

A host that seeds the generator wants the same numbers again. What an evaluation comes to depends on
the generator only through the opcodes that draw, so that evaluations without them may be added to a
run or left out, and every other evaluation comes to the same.
-/
namespace NodeScript

/-- The evaluations that a host can ask for. -/
inductive Evaluation where
  | value | pair | uint32 | int32 | binary64 | buffer | bufferBytes | stringIndex | roleIndex
  | objectIndex

/-- What an evaluation answers. -/
inductive Answer where
  | value (v : Value)
  | pair (both : Value × Value)
  | uint32 (n : UInt32)
  | int32 (n : Int32)
  | binary64 (x : Binary64)
  | bytes (bytes : Bytes)

namespace Evaluation

/-- How many expressions are evaluated. -/
def expressions : Evaluation → Nat
  | pair => 2
  | _ => 1

open Procedure in
def procedure (world : World) : Evaluation → Procedure Answer
  | value => Procedure.value >>= fun v => done (.value v)
  | pair => Procedure.pair >>= fun both => done (.pair both)
  | uint32 => Procedure.uint32 >>= fun n => done (.uint32 n)
  | int32 => Procedure.int32 >>= fun n => done (.int32 n)
  | binary64 => Procedure.binary64 >>= fun x => done (.binary64 x)
  | buffer => Procedure.buffer world >>= fun v => done (.value v)
  | bufferBytes => Procedure.bufferBytes world >>= fun bytes => done (.bytes bytes)
  | stringIndex => Procedure.stringIndex world >>= fun index => done (.uint32 index)
  | roleIndex => Procedure.roleIndex world >>= fun index => done (.uint32 index)
  | objectIndex => Procedure.objectIndex >>= fun index => done (.uint32 index)

theorem procedure_shape (world : World) (evaluation : Evaluation) :
    (evaluation.procedure world).HasShape false evaluation.expressions := by
  cases evaluation with
  | value => exact Procedure.value_shape.bind fun _ => .done _
  | pair => exact Procedure.pair_shape.bind fun _ => .done _
  | uint32 => exact Procedure.uint32_shape.bind fun _ => .done _
  | int32 => exact Procedure.int32_shape.bind fun _ => .done _
  | binary64 => exact Procedure.binary64_shape.bind fun _ => .done _
  | buffer => exact (Procedure.buffer_shape world).bind fun _ => .done _
  | bufferBytes => exact (Procedure.bufferBytes_shape world).bind fun _ => .done _
  | stringIndex => exact (Procedure.stringIndex_shape world).bind fun _ => .done _
  | roleIndex => exact (Procedure.roleIndex_shape world).bind fun _ => .done _
  | objectIndex => exact Procedure.objectIndex_shape.bind fun _ => .done _

theorem procedure_drawless (world : World) (evaluation : Evaluation) :
    (evaluation.procedure world).Drawless := by
  cases evaluation with
  | value => exact .bind .value fun _ => .done _
  | pair => exact .bind .pair fun _ => .done _
  | uint32 => exact .bind .uint32 fun _ => .done _
  | int32 => exact .bind .int32 fun _ => .done _
  | binary64 => exact .bind .binary64 fun _ => .done _
  | buffer => exact .bind (.buffer world) fun _ => .done _
  | bufferBytes => exact .bind (.bufferBytes world) fun _ => .done _
  | stringIndex => exact .bind (.stringIndex world) fun _ => .done _
  | roleIndex => exact .bind (.roleIndex world) fun _ => .done _
  | objectIndex => exact .bind .objectIndex fun _ => .done _

end Evaluation

namespace Engine

variable {engine : Engine} {frame : Frame} {evaluation : Evaluation}

/-- What the host is given by an evaluation, and the frame and the engine behind it. -/
def outcome (engine : Engine) (frame : Frame) :
    Evaluation → Except Fault Answer × Frame × Engine
  | .value => answered .value (engine.evalValue frame)
  | .pair => answered .pair (engine.evalPair frame)
  | .uint32 => answered .uint32 (engine.evalUInt32 frame)
  | .int32 => answered .int32 (engine.evalInt32 frame)
  | .binary64 => answered .binary64 (engine.evalBinary64 frame)
  | .buffer => answered .value (engine.evalBuffer frame)
  | .bufferBytes => answered .bytes (engine.evalBufferBytes frame)
  | .stringIndex => answered .uint32 (engine.evalStringIndex frame)
  | .roleIndex => answered .uint32 (engine.evalRoleIndex frame)
  | .objectIndex => answered .uint32 (engine.evalObjectIndex frame)
where
  answered {α : Type} (answer : α → Answer) (outcome : Except Fault α × Frame × Engine) :
      Except Fault Answer × Frame × Engine :=
    (outcome.1.map answer, outcome.2)

theorem outcome_eq_perform (engine : Engine) (frame : Frame) (evaluation : Evaluation) :
    engine.outcome frame evaluation =
      engine.perform frame (evaluation.procedure engine.toWorld) := by
  cases evaluation <;> exact (engine.perform_bind_done frame _ _).symm

/-- At the frame's position stand the expressions of the evaluation, and no opcode in them draws. -/
def StandsDrawless (engine : Engine) (frame : Frame) (evaluation : Evaluation) : Prop :=
  ∃ rest, DrawlessExpressions evaluation.expressions ((engine.functionCode frame).drop frame.pc) rest

/-- The evaluation never starts the opcode for random fractions, and the one for random integers on
bounds only that are not positive. -/
structure StartsNoDraw (engine : Engine) (frame : Frame) (evaluation : Evaluation) : Prop where
  not_random : ∀ active started,
    ¬engine.Dispatches frame (evaluation.procedure engine.toWorld) active .random started
  bound : ∀ active started v after,
    engine.Dispatches frame (evaluation.procedure engine.toWorld) active .randomInt started →
    evaluateWithin engine.toWorld frame engine.settings.maxDepth started = (.ok v, after) →
    v.toInt32 ≤ 0

theorem StartsNoDraw.outcome_generator (none : engine.StartsNoDraw frame evaluation) :
    (engine.outcome frame evaluation).2.2.generator = engine.generator := by
  rw [outcome_eq_perform]
  refine engine.perform_generator frame (evaluation.procedure_drawless engine.toWorld) ?_
  intro active opcode started dispatched
  refine ⟨?_, ?_⟩
  · rintro rfl
    exact none.not_random active started dispatched
  · rintro rfl v after
    exact none.bound active started v after dispatched

/-- A random integer up to a literal that is not positive is not drawn. -/
theorem startsNoDraw_randomInt {byte : UInt8} {rest : Bytes}
    (code : (engine.functionCode frame).drop frame.pc = Opcode.randomInt.toByte :: byte :: rest)
    (compact : compactBase ≤ byte) (bound : compactValue byte ≤ 0) :
    engine.StartsNoDraw frame .value := by
  have literal {start : Cursor} (there : start.rest = byte :: rest) :
      evaluateWithin engine.toWorld frame engine.settings.maxDepth start =
        (.ok (.int (compactValue byte)), { start with rest }) := by
    rw [evaluateWithin_eq, Cursor.readExpression_compact there compact]
  have not_positive {start : Cursor} (there : start.rest = byte :: rest) (v : Value) (after : Cursor)
      (evaluated : evaluateWithin engine.toWorld frame engine.settings.maxDepth start =
        (.ok v, after)) : v.toInt32 ≤ 0 := by
    obtain ⟨⟨⟩, -⟩ := Prod.mk.inj ((literal there).symm.trans evaluated)
    exact bound
  have only {active : Nat} {opcode : Opcode} {started : Cursor}
      (dispatched : engine.Dispatches frame (Evaluation.value.procedure engine.toWorld) active opcode
        started) : opcode = .randomInt ∧ started.rest = byte :: rest := by
    obtain ⟨asked, visited, head, behind, outer, asks, visits, there, declared, -, -, rfl⟩ := dispatched
    rw [← cursor_rest] at code
    cases asks with
    | operand evaluated later => cases later
    | here =>
      cases visits with
      | here =>
        obtain ⟨rfl, rfl⟩ := List.cons.inj (code.symm.trans there)
        exact ⟨(Option.some.inj declared).symm, rfl⟩
      | within code' declared' room asks' visits' =>
        obtain ⟨rfl, rfl⟩ := List.cons.inj (code.symm.trans code')
        obtain rfl := Option.some.inj declared'
        obtain rfl := Procedure.eq_of_asks_of_bound (not_positive rfl) asks'
        rw [visits'.eq_of_compact rfl compact] at there
        obtain ⟨rfl, rfl⟩ := List.cons.inj there
        exact absurd compact (Opcode.not_compact_of_ofByte? declared)
  refine ⟨fun active started dispatched => ?_, fun active started v after dispatched evaluated => ?_⟩
  · cases (only dispatched).1
  · exact not_positive (only dispatched).2 v after evaluated

namespace StandsDrawless

/-- With whatever generator and most recent fault it starts, the evaluation leaves the generator alone,
records its fault if it has one, and comes to the same. -/
theorem outcome_with (drawless : engine.StandsDrawless frame evaluation) (generator : Generator)
    (lastFault : Option Fault) :
    ({ engine with generator, lastFault } : Engine).outcome frame evaluation =
      ((engine.outcome frame evaluation).1, (engine.outcome frame evaluation).2.1,
        { (engine.outcome frame evaluation).2.2 with
          generator
          lastFault := recordAfter lastFault (engine.outcome frame evaluation).1 }) := by
  obtain ⟨rest, expressions⟩ := drawless
  rw [outcome_eq_perform, outcome_eq_perform]
  exact perform_with (evaluation.procedure_shape engine.toWorld)
    (evaluation.procedure_drawless engine.toWorld) expressions generator lastFault

theorem outcome_generator (drawless : engine.StandsDrawless frame evaluation) :
    (engine.outcome frame evaluation).2.2.generator = engine.generator :=
  congrArg (fun outcome => outcome.2.2.generator)
    (drawless.outcome_with engine.generator engine.lastFault)

theorem outcome_lastFault (drawless : engine.StandsDrawless frame evaluation) :
    (engine.outcome frame evaluation).2.2.lastFault =
      recordAfter engine.lastFault (engine.outcome frame evaluation).1 :=
  congrArg (fun outcome => outcome.2.2.lastFault)
    (drawless.outcome_with engine.generator engine.lastFault)

theorem outcome_withGenerator (drawless : engine.StandsDrawless frame evaluation)
    (generator : Generator) : ({ engine with generator } : Engine).outcome frame evaluation =
      ((engine.outcome frame evaluation).1, (engine.outcome frame evaluation).2.1,
        { (engine.outcome frame evaluation).2.2 with generator }) := by
  have other := drawless.outcome_with generator engine.lastFault
  rw [← drawless.outcome_lastFault] at other
  exact other

/-- Back at its position, the evaluation comes to the same again. -/
theorem outcome_again (drawless : engine.StandsDrawless frame evaluation) :
    (engine.outcome frame evaluation).2.2.outcome
      { (engine.outcome frame evaluation).2.1 with pc := frame.pc } evaluation =
    engine.outcome frame evaluation := by
  have reads : engine.OnlyReads frame (engine.outcome frame evaluation).2 := by
    rw [outcome_eq_perform]
    exact engine.perform_onlyReads frame _
  obtain ⟨pc, generator, lastFault, after⟩ := reads
  have drawn : (engine.outcome frame evaluation).2.2.generator = generator := by rw [after]
  have recorded : (engine.outcome frame evaluation).2.2.lastFault = lastFault := by rw [after]
  have stays : recordAfter lastFault (engine.outcome frame evaluation).1 = lastFault := by
    rw [← recorded, drawless.outcome_lastFault, recordAfter_recordAfter]
  have again := drawless.outcome_with generator lastFault
  rw [stays] at again
  rw [after]
  refine again.trans ?_
  rw [← drawn, ← recorded]

end StandsDrawless

end Engine

/-- An evaluation that a host asks for on one of its frames. -/
structure Request where
  frame : Frame
  evaluation : Evaluation

/-- A request that is common to two runs, or a further one that only the longer run makes. -/
inductive Call where
  | common (request : Request)
  | further (request : Request)

def Call.isCommon : Call → Bool
  | common _ => true
  | further _ => false

namespace Engine

/-- What the common requests of a run are answered, and where they leave their frames. -/
def answers : Engine → List Call → List (Except Fault Answer × Frame)
  | _, [] => []
  | engine, .common request :: calls =>
    let (result, frame, after) := engine.outcome request.frame request.evaluation
    (result, frame) :: after.answers calls
  | engine, .further request :: calls =>
    (engine.outcome request.frame request.evaluation).2.2.answers calls

/-- Every further request of the run is for expressions without opcodes that draw, or starts none
that does, in the engine that the run has come to. -/
def FurtherDrawless : Engine → List Call → Prop
  | _, [] => True
  | engine, .common request :: calls =>
    (engine.outcome request.frame request.evaluation).2.2.FurtherDrawless calls
  | engine, .further request :: calls =>
    (engine.StandsDrawless request.frame request.evaluation ∨
      engine.StartsNoDraw request.frame request.evaluation) ∧
    (engine.outcome request.frame request.evaluation).2.2.FurtherDrawless calls

/-- An evaluation that leaves the generator alone changes nothing but the record of faults. -/
theorem outcome_eq_withLastFault (engine : Engine) (frame : Frame) (evaluation : Evaluation)
    (kept : (engine.outcome frame evaluation).2.2.generator = engine.generator) :
    ∃ lastFault, (engine.outcome frame evaluation).2.2 = { engine with lastFault } := by
  rw [outcome_eq_perform] at kept ⊢
  obtain ⟨pc, generator, lastFault, after⟩ :=
    engine.perform_onlyReads frame (evaluation.procedure engine.toWorld)
  rw [after] at kept ⊢
  obtain rfl : generator = engine.generator := kept
  exact ⟨lastFault, rfl⟩

theorem outcome_withLastFault (engine : Engine) (frame : Frame) (evaluation : Evaluation)
    (lastFault : Option Fault) : ∃ recorded,
      ({ engine with lastFault } : Engine).outcome frame evaluation =
        ((engine.outcome frame evaluation).1, (engine.outcome frame evaluation).2.1,
          { (engine.outcome frame evaluation).2.2 with lastFault := recorded }) := by
  rw [outcome_eq_perform, outcome_eq_perform]
  exact engine.perform_withLastFault frame (evaluation.procedure engine.toWorld) lastFault

/-- The record of faults has no part in what the common requests are answered, and what it is after a
further request is all that the request leaves behind. -/
theorem answers_filter_isCommon {engine : Engine} {calls : List Call}
    (drawless : engine.FurtherDrawless calls) (lastFault : Option Fault) :
    ({ engine with lastFault } : Engine).answers (calls.filter Call.isCommon) =
      engine.answers calls := by
  induction calls generalizing engine lastFault with
  | nil => rfl
  | cons call calls ih =>
    cases call with
    | common request =>
      obtain ⟨recorded, same⟩ :=
        engine.outcome_withLastFault request.frame request.evaluation lastFault
      change ({ engine with lastFault } : Engine).answers
        (.common request :: calls.filter Call.isCommon) = _
      rw [answers, answers, same]
      exact congrArg (List.cons _) (ih drawless recorded)
    | further request =>
      obtain ⟨free, others⟩ := drawless
      have kept : (engine.outcome request.frame request.evaluation).2.2.generator =
          engine.generator :=
        free.elim StandsDrawless.outcome_generator StartsNoDraw.outcome_generator
      obtain ⟨recorded, after⟩ := engine.outcome_eq_withLastFault _ _ kept
      have rest := ih others lastFault
      rw [after] at rest
      rw [answers, after]
      exact rest

theorem outcome_toWorld (engine : Engine) (frame : Frame) (evaluation : Evaluation) :
    (engine.outcome frame evaluation).2.2.toWorld = engine.toWorld := by
  rw [outcome_eq_perform]
  rfl

/-- What stands in the code does not change during a run. -/
theorem furtherDrawless_of_standsDrawless {engine : Engine} {calls : List Call}
    (drawless : ∀ request, .further request ∈ calls →
      engine.StandsDrawless request.frame request.evaluation) : engine.FurtherDrawless calls := by
  induction calls generalizing engine with
  | nil => trivial
  | cons call calls ih =>
    have later (request : Request) (evaluation : Evaluation) :
        (engine.outcome request.frame evaluation).2.2.FurtherDrawless calls := by
      refine ih fun other there => ?_
      have stands := drawless other (List.mem_cons_of_mem call there)
      rw [StandsDrawless, outcome_toWorld]
      exact stands
    cases call with
    | common request => exact later request request.evaluation
    | further request =>
      exact ⟨.inl (drawless request List.mem_cons_self), later request request.evaluation⟩

/-- Only the opcodes for random numbers use the generator. An evaluation of expressions without them
comes to the same with every generator, leaves the generator alone, and comes to the same again. On any
code, an evaluation that starts none of them, but for random integers up to a bound that is not
positive, leaves the generator alone. So further evaluations that do not draw, whether they succeed or
fail, leave every other evaluation of a run with the answer that it has without them. -/
theorem generator_use :
    (∀ (engine : Engine) (frame : Frame) (evaluation : Evaluation),
      engine.StandsDrawless frame evaluation →
        let outcome := engine.outcome frame evaluation
        outcome.2.2.generator = engine.generator ∧
        (∀ generator, ({ engine with generator } : Engine).outcome frame evaluation =
          (outcome.1, outcome.2.1, { outcome.2.2 with generator })) ∧
        outcome.2.2.outcome { outcome.2.1 with pc := frame.pc } evaluation = outcome) ∧
    (∀ (engine : Engine) (frame : Frame) (evaluation : Evaluation),
      engine.StartsNoDraw frame evaluation →
        (engine.outcome frame evaluation).2.2.generator = engine.generator) ∧
    (∀ (engine : Engine) (calls : List Call),
      (∀ request, .further request ∈ calls →
        engine.StandsDrawless request.frame request.evaluation) →
      engine.answers (calls.filter Call.isCommon) = engine.answers calls) ∧
    (∀ (engine : Engine) (calls : List Call), engine.FurtherDrawless calls →
      engine.answers (calls.filter Call.isCommon) = engine.answers calls) :=
  ⟨fun _ _ _ drawless => ⟨drawless.outcome_generator, drawless.outcome_withGenerator,
      drawless.outcome_again⟩,
    fun _ _ _ => StartsNoDraw.outcome_generator,
    fun engine _ drawless =>
      answers_filter_isCommon (furtherDrawless_of_standsDrawless drawless) engine.lastFault,
    fun engine _ drawless => answers_filter_isCommon drawless engine.lastFault⟩

/-- Around two random integers, a local variable that is missing and a random integer up to zero do not
matter. -/
theorem generator_use_seeded :
    let code := Assembler.opcode .randomInt ++ Assembler.integer 6 ++
      Assembler.withImmediate .loadLocal 3 ++ Assembler.opcode .randomInt ++ Assembler.integer 0
    let engine := start { Image.empty with functions := #[⟨"main", 0, 0, code⟩] } ⟨16, some 42⟩ 0
    let request (pc : Nat) : Request := ⟨⟨0, pc, #[], #[], 0⟩, .value⟩
    engine.answers [.common (request 0)] =
        engine.answers [.further (request 2), .common (request 0)] ∧
      engine.answers [.common (request 0), .common (request 0)] =
        engine.answers
          [.further (request 4), .common (request 0), .further (request 2), .common (request 0)] ∧
      (engine.outcome (request 4).frame .value).2.2.generator = engine.generator ∧
      (({ engine with generator := ⟨7⟩ } : Engine).outcome (request 2).frame .value).1 =
        .error .localOutOfRange := by
  intro code engine request
  obtain ⟨drawless, starts, standing, runs⟩ := generator_use
  have missing : engine.StandsDrawless (request 2).frame .value :=
    ⟨code.drop 4, .opcode (show Opcode.ofByte? 1 = some .loadLocal from rfl) rfl ⟨_, [], rfl, rfl⟩
      (.none _) (.none _)⟩
  have zero : engine.StartsNoDraw (request 4).frame .value :=
    startsNoDraw_randomInt (show code.drop 4 = _ :: _ :: [] from rfl) (by decide) (by decide)
  have free : engine.FurtherDrawless
      [.further (request 4), .common (request 0), .further (request 2), .common (request 0)] := by
    refine ⟨.inr zero, .inl ?_, trivial⟩
    rw [StandsDrawless, outcome_toWorld, outcome_toWorld]
    exact missing
  refine ⟨standing engine [.further (request 2), .common (request 0)] fun other there => ?_,
    runs engine _ free, starts engine _ .value zero, ?_⟩
  · rcases List.mem_cons.1 there with same | there
    · obtain rfl := Call.further.inj same
      exact missing
    · cases List.mem_singleton.1 there
  · rw [(drawless engine _ .value missing).2.1]
    rfl

end Engine
end NodeScript
