import NodeScript.Proofs.DepthCounter
import NodeScript.Proofs.FramePosition

/-!
# The limit on nesting

A limit does nothing but to stop evaluations that nest too many opcodes. Whatever ends in another way
ends in the same way under every larger limit, a complete expression needs exactly as much room as it
nests opcodes, and where there is no room nothing else about an opcode matters.
-/
namespace NodeScript

/-- Running under an evaluation that goes on where another one found no room. -/
theorem Procedure.run_eq_of_not_tooDeep {α : Type}
    {evaluate evaluate' : Cursor → Except Fault Value × Cursor}
    (same : ∀ cursor, (evaluate cursor).1 ≠ .error .tooDeep → evaluate' cursor = evaluate cursor)
    {procedure : Procedure α} {cursor : Cursor}
    (fine : (procedure.run evaluate cursor).1 ≠ .error .tooDeep) :
    procedure.run evaluate' cursor = procedure.run evaluate cursor := by
  induction procedure generalizing cursor with
  | done | fail => rfl
  | immediate next ih =>
    simp only [run] at fine ⊢
    split at fine
    · next n middle _ => exact ih n fine
    · rfl
  | operand next ih =>
    simp only [run] at fine ⊢
    split at fine
    · next v middle evaluated =>
      have succeeded : (evaluate cursor).1 ≠ .error .tooDeep := by
        simp [evaluated]
      rw [same cursor succeeded, evaluated]
      exact ih v fine
    · next fault middle evaluated =>
      have failed : (evaluate cursor).1 ≠ .error .tooDeep := by
        rw [evaluated]
        rintro ⟨⟩
        exact fine rfl
      rw [same cursor failed, evaluated]
  | draw sample next ih => exact ih _ fine

theorem Cursor.nested_fst {α : Type} (action : Cursor → Except Fault α × Cursor) (cursor : Cursor) :
    (cursor.nested action).1 = (action { cursor with depth := cursor.depth + 1 }).1 := rfl

variable (world : World) (frame : Frame)

/-- More room changes nothing but that an expression is nested too deep. -/
theorem evaluate_eq_of_not_tooDeep {room room' : Nat} (le : room ≤ room') {cursor : Cursor}
    (fine : (evaluate world frame room cursor).1 ≠ .error .tooDeep) :
    evaluate world frame room' cursor = evaluate world frame room cursor := by
  induction room generalizing room' cursor with
  | zero =>
    cases code : cursor.rest with
    | nil => cases room' <;> simp only [evaluate, Cursor.readExpression_nil code]
    | cons byte rest =>
      by_cases compact : compactBase ≤ byte
      · cases room' <;> simp only [evaluate, Cursor.readExpression_compact code compact]
      · rw [evaluate, Cursor.readExpression_opcode code compact] at fine
        exact absurd rfl fine
  | succ room ih =>
    obtain ⟨room', rfl⟩ := Nat.exists_eq_add_of_le' (Nat.le_trans (Nat.le_add_left 1 room) le)
    rw [evaluate] at fine ⊢
    rw [evaluate]
    cases code : cursor.rest with
    | nil => rw [Cursor.readExpression_nil code, Cursor.readExpression_nil code]
    | cons byte rest =>
      by_cases compact : compactBase ≤ byte
      · rw [Cursor.readExpression_compact code compact, Cursor.readExpression_compact code compact]
      · rw [Cursor.readExpression_opcode code compact] at fine ⊢
        rw [Cursor.readExpression_opcode code compact]
        cases declared : Opcode.ofByte? byte with
        | none => rw [dispatch_undeclared declared, dispatch_undeclared declared]
        | some opcode =>
          rw [dispatch_declared declared, Cursor.nested_fst] at fine
          rw [dispatch_declared declared, dispatch_declared declared, Cursor.nested, Cursor.nested,
            Procedure.run_eq_of_not_tooDeep (fun _ => ih (Nat.le_of_succ_le_succ le)) fine]

/-- A fault of an operand is the fault of the procedure that asks for it. -/
theorem Procedure.Asks.run_error {α : Type} {evaluate : Cursor → Except Fault Value × Cursor}
    {procedure : Procedure α} {start asked : Cursor} {fault : Fault}
    (h : procedure.Asks evaluate start asked) (failed : (evaluate asked).1 = .error fault) :
    (procedure.run evaluate start).1 = .error fault := by
  induction h with
  | here start =>
    rw [run]
    split
    · next v middle evaluated =>
      rw [evaluated] at failed
      cases failed
    · next fault' middle evaluated =>
      rw [evaluated] at failed
      cases failed
      rfl
  | operand evaluated _ ih =>
    rw [run, evaluated]
    exact ih failed
  | immediate read _ ih =>
    rw [run, read]
    exact ih failed
  | draw _ ih =>
    rw [run_draw]
    exact ih failed

/-- A fault of an expression is the fault of every expression that has it evaluated. -/
theorem Visits.evaluateWithin_error {limit : Nat} {start visited : Cursor} {active : Nat}
    {fault : Fault} (h : Visits world frame limit start active visited)
    (failed : (evaluateWithin world frame limit visited).1 = .error fault) :
    (evaluateWithin world frame limit start).1 = .error fault := by
  induction h with
  | here => exact failed
  | within code declared room asks _ ih =>
    rw [evaluateWithin_opcode world frame limit code declared room]
    exact asks.run_error (ih failed)

/-- Where the counter has reached the limit, no opcode byte is looked at. -/
theorem evaluateWithin_tooDeep {limit : Nat} {cursor : Cursor} {byte : UInt8} {rest : Bytes}
    (code : cursor.rest = byte :: rest) (opcode : ¬compactBase ≤ byte)
    (full : limit ≤ cursor.depth) :
    (evaluateWithin world frame limit cursor).1 = .error .tooDeep := by
  rw [evaluateWithin_eq, Cursor.readExpression_opcode code opcode, if_neg (Nat.not_lt.2 full)]
  rfl

namespace Engine

/-- The engine with another limit on nesting. -/
def withMaxDepth (engine : Engine) (maxDepth : Nat) : Engine :=
  { engine with settings := { engine.settings with maxDepth } }

variable (engine : Engine) (frame : Frame)

theorem evalValue_withMaxDepth (limit : Nat) :
    (engine.withMaxDepth limit).evalValue frame = (engine.withMaxDepth limit).move frame
      (evaluate engine.toWorld frame (limit - engine.depth)) :=
  (engine.withMaxDepth limit).evalValue_eq_move frame

theorem evalValue_eq_of_not_tooDeep {limit limit' : Nat} (le : limit ≤ limit')
    (fine : ((engine.withMaxDepth limit).evalValue frame).1 ≠ .error .tooDeep) :
    (engine.withMaxDepth limit').evalValue frame =
      (((engine.withMaxDepth limit).evalValue frame).1,
        ((engine.withMaxDepth limit).evalValue frame).2.1,
        ((engine.withMaxDepth limit).evalValue frame).2.2.withMaxDepth limit') := by
  rw [evalValue_withMaxDepth] at fine
  have same := evaluate_eq_of_not_tooDeep engine.toWorld frame
    (Nat.sub_le_sub_right le engine.depth) fine
  simp only [evalValue_withMaxDepth]
  rw [move_congr (engine.withMaxDepth limit') frame same]
  rfl

/-- A complete expression is not nested too deep where there is room for what it nests. -/
theorem evalValue_ne_tooDeep {limit stop nesting : Nat}
    (complete : ExpressionAt (engine.functionCode frame) frame.pc stop nesting)
    (room : engine.depth + nesting ≤ limit) :
    ((engine.withMaxDepth limit).evalValue frame).1 ≠ .error .tooDeep := by
  intro failed
  have short : limit - engine.depth < nesting :=
    (((engine.withMaxDepth limit).evalValue_error frame complete failed).1 rfl).2
  omega

/-- A success leaves room for what the expression nests. -/
theorem le_of_evalValue_ok {limit stop nesting : Nat} {v : Value}
    (complete : ExpressionAt (engine.functionCode frame) frame.pc stop nesting)
    (within : engine.depth ≤ limit)
    (h : ((engine.withMaxDepth limit).evalValue frame).1 = .ok v) :
    engine.depth + nesting ≤ limit := by
  obtain ⟨nesting', le, read⟩ := (engine.withMaxDepth limit).expressionAt_of_evalValue_ok frame h
  obtain ⟨-, rfl⟩ := complete.unique read
  have room : nesting ≤ limit - engine.depth := le
  omega

/-- Under all limits that leave room for a complete expression it evaluates alike. -/
theorem evalValue_fst_eq_of_room {limit limit' stop nesting : Nat}
    (complete : ExpressionAt (engine.functionCode frame) frame.pc stop nesting)
    (room : engine.depth + nesting ≤ limit) (room' : engine.depth + nesting ≤ limit') :
    ((engine.withMaxDepth limit).evalValue frame).1 =
      ((engine.withMaxDepth limit').evalValue frame).1 := by
  have least := evalValue_ne_tooDeep engine frame complete (Nat.le_refl (engine.depth + nesting))
  rw [evalValue_eq_of_not_tooDeep engine frame room least,
    evalValue_eq_of_not_tooDeep engine frame room' least]

/-- The limit on nesting is exact and monotone. A complete expression succeeds if and only if the limit
leaves room for all that it nests and it succeeds where the limit is large enough, and with that room
it is never nested too deep. On any code, a result other than that is the same under every larger
limit, with the same position, generator and most recent fault. And whenever an opcode byte is come
to where the counter has reached the limit, it is nested too deep, be it declared or not. -/
theorem maxDepth_exact :
    (∀ stop nesting, ExpressionAt (engine.functionCode frame) frame.pc stop nesting →
      ∀ limit, engine.depth ≤ limit →
        (∀ large v, engine.depth + nesting ≤ large →
          (((engine.withMaxDepth limit).evalValue frame).1 = .ok v ↔
            engine.depth + nesting ≤ limit ∧
              ((engine.withMaxDepth large).evalValue frame).1 = .ok v)) ∧
        (engine.depth + nesting ≤ limit →
          ((engine.withMaxDepth limit).evalValue frame).1 ≠ .error .tooDeep)) ∧
    (∀ limit large, limit ≤ large →
      ((engine.withMaxDepth limit).evalValue frame).1 ≠ .error .tooDeep →
        (engine.withMaxDepth large).evalValue frame =
          (((engine.withMaxDepth limit).evalValue frame).1,
            ((engine.withMaxDepth limit).evalValue frame).2.1,
            ((engine.withMaxDepth limit).evalValue frame).2.2.withMaxDepth large)) ∧
    (∀ limit active visited byte rest,
      Visits engine.toWorld frame limit (engine.cursor frame) active visited →
      visited.rest = byte :: rest → ¬compactBase ≤ byte → limit ≤ visited.depth →
        ((engine.withMaxDepth limit).evalValue frame).1 = .error .tooDeep) := by
  refine ⟨fun stop nesting complete limit within => ⟨fun large v room => ?_, ?_⟩, ?_, ?_⟩
  · constructor
    · intro h
      have enough := le_of_evalValue_ok engine frame complete within h
      exact ⟨enough, (evalValue_fst_eq_of_room engine frame complete room enough).trans h⟩
    · rintro ⟨enough, h⟩
      exact (evalValue_fst_eq_of_room engine frame complete enough room).trans h
  · exact evalValue_ne_tooDeep engine frame complete
  · intro limit large le fine
    exact evalValue_eq_of_not_tooDeep engine frame le fine
  · intro limit active visited byte rest visits code opcode full
    rw [evalValue_withMaxDepth]
    exact visits.evaluateWithin_error engine.toWorld frame
      (evaluateWithin_tooDeep engine.toWorld frame code opcode full)

/-- Two nested opcodes are one too many for a limit of one, as is an opcode that is not declared, and
what a limit of two allows a limit of nine allows. -/
theorem maxDepth_exact_complement :
    let code := Assembler.opcode (.unary .bitNot) ++ Assembler.opcode (.unary .bitNot)
    let engine (last : UInt8) := start
      { Image.empty with functions := #[⟨"main", 0, 0, code ++ [last]⟩] } .standard 0
    let result (limit : Nat) (last : UInt8) :=
      (((engine last).withMaxDepth limit).evalValue ⟨0, 0, #[], #[], 0⟩).1
    result 1 0x91 ≠ .ok (.int 1) ∧ result 2 0x7F = .error .tooDeep ∧
      result 9 0x91 = result 2 0x91 := by
  intro code engine result
  have complete : ExpressionAt (code ++ [0x91]) 0 3 2 :=
    ⟨by decide, .one_opcode rfl rfl (.one_opcode rfl rfl (.one_compact (by decide)))⟩
  obtain ⟨exact_limit, monotone, -⟩ := maxDepth_exact (engine 0x91) ⟨0, 0, #[], #[], 0⟩
  obtain ⟨-, -, before_opcode⟩ := maxDepth_exact (engine 0x7F) ⟨0, 0, #[], #[], 0⟩
  have larger := monotone 2 9 (by decide) (by rintro ⟨⟩)
  refine ⟨fun h => ?_, ?_, (congrArg Prod.fst larger :)⟩
  · have enough := ((exact_limit 3 2 complete 1 (by decide)).1 2 (.int 1) (by decide)).1 h
    exact absurd enough.1 (by decide)
  · refine before_opcode 2 2 _ 0x7F [] (.within rfl rfl (by decide) (.here _)
      (.within rfl rfl (by decide) (.here _) (.here _))) rfl (by decide) (by decide)

end Engine
end NodeScript
