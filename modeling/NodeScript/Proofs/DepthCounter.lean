import NodeScript.Proofs.CursorLaw
import NodeScript.Proofs.HostOperation
import NodeScript.Proofs.OperandEncoding

/-!
# The nesting counter

The cursor counts the opcodes that are being evaluated. Every evaluation leaves the counter as it was,
so testing the counter against the limit is the same as evaluating with the room that is left, and
the counter says how many opcodes are under way whenever the procedure of another one is started. An
evaluator that keeps that count for itself would not notice any difference.
-/
namespace NodeScript

/-- Actions leave the counter as it was. -/
def CursorLaw.balanced : CursorLaw where
  succeeds start stop := stop.depth = start.depth
  fails start _ stop := stop.depth = start.depth

theorem CursorLaw.balanced_closed : CursorLaw.balanced.Closed where
  refl _ := rfl
  trans first second := second.trans first
  trans_fails first second := second.trans first
  fail _ _ := rfl
  readByte := governs_readByte (fun _ => rfl) fun _ => rfl
  readImmediate := governs_readImmediate (fun _ => rfl) fun _ => rfl
  draw _ _ := rfl
  nested {start stop} h := by
    change stop.depth - 1 = start.depth
    have inner : stop.depth = start.depth + 1 := h
    rw [inner, Nat.add_sub_cancel]
  nested_fails {start fault stop} h := by
    change stop.depth - 1 = start.depth
    have inner : stop.depth = start.depth + 1 := h
    rw [inner, Nat.add_sub_cancel]

theorem CursorLaw.depth_eq {α : Type} {action : Cursor → Except Fault α × Cursor}
    (balanced : CursorLaw.balanced.Governs action) (start : Cursor) :
    (action start).2.depth = start.depth := by
  have h := balanced start
  cases heq : action start with
  | mk result stop =>
    rw [heq] at h
    cases result <;> exact h

namespace Procedure

variable {α : Type} {evaluate evaluate' : Cursor → Except Fault Value × Cursor}

/-- Running the procedure from `start` has an operand evaluated at `asked`. -/
inductive Asks (evaluate : Cursor → Except Fault Value × Cursor) :
    Procedure α → Cursor → Cursor → Prop where
  | here {next : Value → Procedure α} (start : Cursor) : Asks evaluate (.operand next) start start
  | operand {next : Value → Procedure α} {start middle asked : Cursor} {v : Value}
      (evaluated : evaluate start = (.ok v, middle)) (later : Asks evaluate (next v) middle asked) :
      Asks evaluate (.operand next) start asked
  | immediate {next : Int32 → Procedure α} {start middle asked : Cursor} {n : Int32}
      (read : start.readImmediate = (.ok n, middle)) (later : Asks evaluate (next n) middle asked) :
      Asks evaluate (.immediate next) start asked
  | draw {sample : Generator → Value × Generator} {next : Value → Procedure α}
      {start asked : Cursor} (later : Asks evaluate (next (sample start.generator).1)
        { start with generator := (sample start.generator).2 } asked) :
      Asks evaluate (.draw sample next) start asked

/-- All that a run goes through before it asks for an operand has succeeded. -/
theorem Asks.succeeds {law : CursorLaw} (closed : law.Closed) (governed : law.Governs evaluate)
    {procedure : Procedure α} {start asked : Cursor} (h : procedure.Asks evaluate start asked) :
    law.succeeds start asked := by
  induction h with
  | here start => exact closed.refl start
  | @operand _ start _ _ _ evaluated _ ih =>
    have first := governed start
    rw [evaluated] at first
    exact closed.trans first ih
  | @immediate _ start _ _ _ read _ ih =>
    have first := closed.readImmediate start
    rw [read] at first
    exact closed.trans first ih
  | draw _ ih => exact closed.trans (closed.draw _ _) ih

/-- A run depends on nothing but the evaluations that it asks for. -/
theorem run_congr {procedure : Procedure α} {start : Cursor}
    (same : ∀ asked, procedure.Asks evaluate start asked → evaluate asked = evaluate' asked) :
    procedure.run evaluate start = procedure.run evaluate' start := by
  induction procedure generalizing start with
  | done | fail => rfl
  | immediate next ih =>
    simp only [run]
    split
    · next n middle read => exact ih n fun asked later => same asked (.immediate read later)
    · rfl
  | operand next ih =>
    simp only [run, ← same start (.here start)]
    split
    · next v middle evaluated => exact ih v fun asked later => same asked (.operand evaluated later)
    · rfl
  | draw sample next ih => exact ih _ fun asked later => same asked (.draw later)

end Procedure

/-- Evaluates the expression at the cursor where the counter may not exceed the limit. -/
def evaluateWithin (world : World) (frame : Frame) (limit : Nat) (cursor : Cursor) :
    Except Fault Value × Cursor :=
  evaluate world frame (limit - cursor.depth) cursor

variable (world : World) (frame : Frame) (limit : Nat)

theorem CursorLaw.Closed.governs_evaluateWithin {law : CursorLaw} (closed : law.Closed) :
    law.Governs (evaluateWithin world frame limit) :=
  fun start => closed.governs_evaluate world frame (limit - start.depth) start

theorem Cursor.readExpression_congr {opcode opcode' : UInt8 → Cursor → Except Fault Value × Cursor}
    {cursor : Cursor}
    (same : ∀ byte rest, opcode byte { cursor with rest } = opcode' byte { cursor with rest }) :
    cursor.readExpression opcode = cursor.readExpression opcode' := by
  cases code : cursor.rest with
  | nil => rw [readExpression_nil code, readExpression_nil code]
  | cons byte rest =>
    by_cases compact : compactBase ≤ byte
    · rw [readExpression_compact code compact, readExpression_compact code compact]
    · rw [readExpression_opcode code compact, readExpression_opcode code compact, same]

/-- While the counter is balanced, all operands of a procedure are evaluated with the same room. -/
theorem Procedure.run_evaluateWithin {α : Type} {room : Nat} {cursor : Cursor}
    (procedure : Procedure α) (left : limit - cursor.depth = room) :
    procedure.run (evaluate world frame room) cursor =
      procedure.run (evaluateWithin world frame limit) cursor := by
  refine run_congr fun asked asks => ?_
  have balanced : asked.depth = cursor.depth := asks.succeeds CursorLaw.balanced_closed
    (CursorLaw.balanced_closed.governs_evaluate world frame room)
  rw [evaluateWithin, balanced, left]

theorem nested_dispatch_evaluateWithin {room : Nat} {byte : UInt8} {cursor : Cursor}
    (left : limit - cursor.depth = room + 1) :
    cursor.nested (dispatch world frame (evaluate world frame room) byte) =
      cursor.nested (dispatch world frame (evaluateWithin world frame limit) byte) := by
  have deeper : limit - (cursor.depth + 1) = room := by omega
  cases declared : Opcode.ofByte? byte with
  | none => rw [dispatch_undeclared declared, dispatch_undeclared declared]
  | some opcode =>
    rw [dispatch_declared declared, dispatch_declared declared, Cursor.nested,
      Procedure.run_evaluateWithin world frame limit (opcode.handler world frame) deeper]
    rfl

/-- Evaluation tests the counter before it looks at the opcode, and evaluates every operand under the
same limit. -/
theorem evaluateWithin_eq (cursor : Cursor) :
    evaluateWithin world frame limit cursor =
      cursor.readExpression fun byte cursor =>
        if cursor.depth < limit then
          cursor.nested (dispatch world frame (evaluateWithin world frame limit) byte)
        else cursor.fail .tooDeep := by
  cases left : limit - cursor.depth with
  | zero =>
    rw [evaluateWithin, left]
    refine Cursor.readExpression_congr fun byte rest => ?_
    rw [if_neg (by simp only; omega)]
  | succ room =>
    rw [evaluateWithin, left]
    refine Cursor.readExpression_congr fun byte rest => ?_
    rw [if_pos (by simp only; omega)]
    exact nested_dispatch_evaluateWithin world frame limit left

/-- The opcode at a cursor that the limit leaves room for has its procedure run one level deeper. -/
theorem evaluateWithin_opcode {start : Cursor} {byte : UInt8} {rest : Bytes} {opcode : Opcode}
    (code : start.rest = byte :: rest) (declared : Opcode.ofByte? byte = some opcode)
    (room : start.depth < limit) :
    evaluateWithin world frame limit start = Cursor.nested
      ((opcode.handler world frame).run (evaluateWithin world frame limit)) { start with rest } := by
  rw [evaluateWithin_eq,
    Cursor.readExpression_opcode code (Opcode.not_compact_of_ofByte? declared), if_pos room,
    dispatch_declared declared]

/-- Evaluating at `visited` is to read the opcode's byte, to count, and to run the opcode's procedure
from `started` on; behind it the counter is taken back. -/
structure Starts (visited : Cursor) (opcode : Opcode) (started : Cursor) : Prop where
  code : ∃ byte, visited.rest = byte :: started.rest ∧ Opcode.ofByte? byte = some opcode
  counted : started = { visited with rest := started.rest, depth := visited.depth + 1 }
  runs {result : Except Fault Value} {stop : Cursor}
    (ran : (opcode.handler world frame).run (evaluateWithin world frame limit) started =
      (result, stop)) :
    evaluateWithin world frame limit visited = (result, { stop with depth := stop.depth - 1 })

theorem starts_of_room {visited : Cursor} {byte : UInt8} {rest : Bytes} {opcode : Opcode}
    (code : visited.rest = byte :: rest) (declared : Opcode.ofByte? byte = some opcode)
    (room : visited.depth < limit) :
    Starts world frame limit visited opcode { visited with rest, depth := visited.depth + 1 } where
  code := ⟨byte, code, declared⟩
  counted := rfl
  runs ran := by
    rw [evaluateWithin_opcode world frame limit code declared room, Cursor.nested]
    simp only [ran]

/-- Evaluating the expression at `start` has the expression at `visited` evaluated, while the
procedures of so many opcodes are under way. -/
inductive Visits (world : World) (frame : Frame) (limit : Nat) : Cursor → Nat → Cursor → Prop where
  | here (start : Cursor) : Visits world frame limit start 0 start
  | within {start asked visited : Cursor} {byte : UInt8} {rest : Bytes} {opcode : Opcode}
      {active : Nat} (code : start.rest = byte :: rest)
      (declared : Opcode.ofByte? byte = some opcode) (room : start.depth < limit)
      (asks : (opcode.handler world frame).Asks (evaluateWithin world frame limit)
        { start with rest, depth := start.depth + 1 } asked)
      (visits : Visits world frame limit asked active visited) :
      Visits world frame limit start (active + 1) visited

/-- The counter is what it was at the start and one more for each procedure under way. -/
theorem Visits.depth_eq {start visited : Cursor} {active : Nat}
    (h : Visits world frame limit start active visited) :
    visited.depth = start.depth + active := by
  induction h with
  | here => rfl
  | @within start asked _ _ _ _ _ _ _ _ asks _ ih =>
    have balanced : asked.depth = start.depth + 1 := asks.succeeds CursorLaw.balanced_closed
      (CursorLaw.balanced_closed.governs_evaluateWithin world frame limit)
    omega

/-- Evaluates with room for so many nested opcodes, and counts the ones under way by itself. Where the
cursor's counter is not `entry` and one more for each of them, or is beyond the limit, `otherwise`
takes the place of the opcode's procedure. -/
def evaluateCounted (entry : Nat) (otherwise : Cursor → Except Fault Value × Cursor) :
    (room active : Nat) → Cursor → Except Fault Value × Cursor
  | 0, _ => Cursor.readExpression fun _ => Cursor.fail .tooDeep
  | room + 1, active => Cursor.readExpression fun byte => Cursor.nested fun cursor =>
    if cursor.depth = entry + (active + 1) ∧ cursor.depth ≤ limit then
      dispatch world frame (evaluateCounted entry otherwise room (active + 1)) byte cursor
    else otherwise cursor

/-- Nothing ever takes the place of an opcode's procedure. -/
theorem evaluateCounted_eq {entry : Nat} {otherwise : Cursor → Except Fault Value × Cursor}
    {room active : Nat} {cursor : Cursor} (counted : cursor.depth = entry + active)
    (left : limit - cursor.depth = room) :
    evaluateCounted world frame limit entry otherwise room active cursor =
      evaluate world frame room cursor := by
  induction room generalizing active cursor with
  | zero => rfl
  | succ room ih =>
    refine Cursor.readExpression_congr fun byte rest => ?_
    have agrees : cursor.depth + 1 = entry + (active + 1) ∧ cursor.depth + 1 ≤ limit := by omega
    rw [Cursor.nested, Cursor.nested, if_pos agrees]
    cases declared : Opcode.ofByte? byte with
    | none => rw [dispatch_undeclared declared, dispatch_undeclared declared]
    | some opcode =>
      have same : ∀ asked, (opcode.handler world frame).Asks (evaluate world frame room)
          { cursor with rest, depth := cursor.depth + 1 } asked →
          evaluate world frame room asked =
            evaluateCounted world frame limit entry otherwise room (active + 1) asked := by
        intro asked asks
        -- The operands before this one have left the counter as it was.
        have balanced : asked.depth = cursor.depth + 1 := asks.succeeds CursorLaw.balanced_closed
          (CursorLaw.balanced_closed.governs_evaluate world frame room)
        exact (ih (by omega) (by omega)).symm
      rw [dispatch_declared declared, dispatch_declared declared, Procedure.run_congr same]

namespace Engine

variable (engine : Engine) (frame : Frame)

theorem move_congr {α : Type} {action action' : Cursor → Except Fault α × Cursor}
    (same : action (engine.cursor frame) = action' (engine.cursor frame)) :
    engine.move frame action = engine.move frame action' := by
  simp only [move, same]

/-- What the engine runs has its operands evaluated with the counter tested against the limit. -/
theorem perform_eq_within {α : Type} (procedure : Procedure α) :
    engine.perform frame procedure = engine.move frame
      (procedure.run (evaluateWithin engine.toWorld frame engine.settings.maxDepth)) :=
  engine.move_congr frame
    (procedure.run_evaluateWithin engine.toWorld frame engine.settings.maxDepth rfl)

/-- What the engine runs would notice if the counter were ever wrong. -/
theorem perform_eq_counted {α : Type} (procedure : Procedure α)
    (otherwise : Cursor → Except Fault Value × Cursor) :
    engine.perform frame procedure = engine.move frame
      (procedure.run (evaluateCounted engine.toWorld frame engine.settings.maxDepth engine.depth
        otherwise (engine.settings.maxDepth - engine.depth) 0)) := by
  refine engine.move_congr frame (Procedure.run_congr fun asked asks => ?_)
  have balanced : asked.depth = engine.depth := asks.succeeds CursorLaw.balanced_closed
    (CursorLaw.balanced_closed.governs_evaluate engine.toWorld frame _)
  exact (evaluateCounted_eq engine.toWorld frame _ balanced (by rw [balanced])).symm

/-- While the engine runs a procedure on the frame, the procedure of an opcode is started at a cursor,
so that so many are under way. -/
def Dispatches {α : Type} (procedure : Procedure α) (active : Nat) (opcode : Opcode)
    (started : Cursor) : Prop :=
  ∃ asked visited byte rest outer,
    procedure.Asks (evaluateWithin engine.toWorld frame engine.settings.maxDepth)
      (engine.cursor frame) asked ∧
    Visits engine.toWorld frame engine.settings.maxDepth asked outer visited ∧
    visited.rest = byte :: rest ∧ Opcode.ofByte? byte = some opcode ∧
    visited.depth < engine.settings.maxDepth ∧
    active = outer + 1 ∧ started = { visited with rest, depth := visited.depth + 1 }

/-- A procedure is started with itself counted, and never beyond the limit. -/
theorem Dispatches.depth_eq {α : Type} {procedure : Procedure α} {active : Nat} {opcode : Opcode}
    {started : Cursor} (h : engine.Dispatches frame procedure active opcode started) :
    started.depth = engine.depth + active ∧ started.depth ≤ engine.settings.maxDepth := by
  obtain ⟨asked, visited, byte, rest, outer, asks, visits, -, -, room, rfl, rfl⟩ := h
  have top : asked.depth = engine.depth := asks.succeeds CursorLaw.balanced_closed
    (CursorLaw.balanced_closed.governs_evaluateWithin engine.toWorld frame _)
  have inner := visits.depth_eq
  exact ⟨by simp only; omega, room⟩

theorem Dispatches.exists_starts {α : Type} {procedure : Procedure α} {active : Nat}
    {opcode : Opcode} {started : Cursor}
    (h : engine.Dispatches frame procedure active opcode started) :
    ∃ visited, Starts engine.toWorld frame engine.settings.maxDepth visited opcode started := by
  obtain ⟨asked, visited, byte, rest, outer, -, -, code, declared, room, rfl, rfl⟩ := h
  exact ⟨visited, starts_of_room engine.toWorld frame _ code declared room⟩

theorem move_depth {α : Type} {action : Cursor → Except Fault α × Cursor}
    (balanced : CursorLaw.balanced.Governs action) :
    (engine.move frame action).2.2.depth = engine.depth :=
  CursorLaw.depth_eq balanced (engine.cursor frame)

theorem perform_depth {α : Type} (procedure : Procedure α) :
    (engine.perform frame procedure).2.2.depth = engine.depth :=
  engine.move_depth frame
    (CursorLaw.balanced_closed.governs_run_evaluate engine.toWorld frame _ procedure)

theorem apply_depth (operation : HostOperation) :
    (HostOperation.apply engine operation).2.depth = engine.depth := by
  cases operation with
  | setGlobal index v =>
    simp only [HostOperation.apply, setGlobal]
    split <;> rfl
  | bindRole role service =>
    simp only [HostOperation.apply, bindRole, setBinding]
    split <;> rfl
  | unbindRole role =>
    simp only [HostOperation.apply, unbindRole, setBinding]
    split <;> rfl
  | openFrame function params fiber =>
    simp only [HostOperation.apply, openFrame]
    split <;> rfl
  | fetchByte frame => exact engine.move_depth frame CursorLaw.balanced_closed.readByte
  | fetchImmediate frame => exact engine.move_depth frame CursorLaw.balanced_closed.readImmediate
  | evalValue frame | evalPair frame | evalUInt32 frame | evalInt32 frame | evalBinary64 frame
  | evalBuffer frame | evalBufferBytes frame | evalStringIndex frame | evalRoleIndex frame
  | evalObjectIndex frame => exact engine.perform_depth frame _
  | fail | takeFault | setPacket | setNow | setHeap | spawnFiber | killFiber | setFiberStatus
  | setFiberResult => rfl

theorem runAll_depth (operations : List HostOperation) :
    (engine.runAll operations).depth = engine.depth := by
  refine runAll_induction (motive := fun after => after.depth = engine.depth) ?_ rfl operations
  intro after operation same
  rw [apply_depth, same]

/-- The nesting counter is in balance. Every evaluation leaves it as it was, whatever the code and
whether it succeeds or fails. Whenever the evaluator starts the procedure of an opcode, the counter is
what it was at first and one more for each procedure under way, and within the limit: an evaluator that
counts them by itself, and does anything else where its count and the counter differ, does the same. So
the counter is zero after every run of operations on a new engine. -/
theorem depth_balance :
    (EveryEvaluation fun _ evaluation => ∀ (engine : Engine) (frame : Frame),
      (evaluation engine frame).2.2.depth = engine.depth) ∧
    (∀ (engine : Engine) (frame : Frame) (α : Type) (procedure : Procedure α) (active : Nat)
      (opcode : Opcode) (started : Cursor),
      engine.Dispatches frame procedure active opcode started →
        started.depth = engine.depth + active ∧ started.depth ≤ engine.settings.maxDepth ∧
        ∃ visited, Starts engine.toWorld frame engine.settings.maxDepth visited opcode started) ∧
    (∀ (engine : Engine) (frame : Frame) (α : Type) (procedure : Procedure α)
      (otherwise : Cursor → Except Fault Value × Cursor),
      engine.perform frame procedure = engine.move frame
        (procedure.run (evaluateWithin engine.toWorld frame engine.settings.maxDepth)) ∧
      engine.perform frame procedure = engine.move frame
        (procedure.run (evaluateCounted engine.toWorld frame engine.settings.maxDepth engine.depth
          otherwise (engine.settings.maxDepth - engine.depth) 0))) ∧
    (∀ (image : Image) (settings : Settings) (entropy : UInt64) (operations : List HostOperation),
      ((start image settings entropy).runAll operations).depth = 0) := by
  refine ⟨.of_perform fun _ procedure engine frame => ?_,
    fun engine frame α procedure active opcode started h => ?_,
    fun engine frame α procedure otherwise => ?_, fun image settings entropy operations => ?_⟩
  · exact engine.perform_depth frame (procedure engine.toWorld)
  · obtain ⟨counted, within_limit⟩ := Dispatches.depth_eq engine frame h
    exact ⟨counted, within_limit, Dispatches.exists_starts engine frame h⟩
  · exact ⟨engine.perform_eq_within frame procedure,
      engine.perform_eq_counted frame procedure otherwise⟩
  · exact runAll_depth _ operations

/-- Inside of two opcodes the counter is two, and after the evaluation it is zero again. -/
theorem depth_balance_complement :
    let code := Assembler.opcode (.unary .bitNot) ++ Assembler.opcode (.unary .bitNot) ++ [0x91]
    let engine := start { Image.empty with functions := #[⟨"main", 0, 0, code⟩] } .standard 0
    let frame : Frame := ⟨0, 0, #[], #[], 0⟩
    (∃ started, engine.Dispatches frame Procedure.value 2 (.unary .bitNot) started ∧
      started.depth = 2) ∧ (engine.evalValue frame).2.2.depth = 0 := by
  intro code engine frame
  obtain ⟨balanced, counted, -⟩ := depth_balance
  have dispatched : engine.Dispatches frame Procedure.value 2 (.unary .bitNot) ⟨[0x91], 2, ⟨0⟩, none⟩ :=
    ⟨_, _, _, _, 1, .here _, .within rfl rfl (by decide) (.here _) (.here _), rfl, rfl, by decide,
      rfl, rfl⟩
  exact ⟨⟨_, dispatched, (counted engine frame _ _ _ _ _ dispatched).1⟩, balanced.value engine frame⟩

end Engine
end NodeScript
