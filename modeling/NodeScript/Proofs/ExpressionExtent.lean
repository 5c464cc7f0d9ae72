import NodeScript.Engine
import NodeScript.Proofs.CompleteExpression
import NodeScript.Proofs.CursorLaw
import NodeScript.Proofs.OperandShape

/-!
# How far evaluation reads

An evaluation that succeeds has read one complete expression, and one that starts at a complete
expression reads no further than its end, whatever it ends with. So the tables of opcode shapes and
the procedures of the opcodes agree on all code, and reading only ever goes forward.
-/
namespace NodeScript

/-- What an evaluation with so much room under the limit on nesting does with complete expressions. -/
structure ReadsExpressions (room : Nat) (evaluate : Cursor → Except Fault Value × Cursor) : Prop where
  /-- A success reads a complete expression for which there is room. -/
  ok : ∀ {start v stop}, evaluate start = (.ok v, stop) →
    ∃ nesting ≤ room, Expressions 1 nesting start.rest stop.rest
  /-- The only trouble with reading a complete expression is a lack of room, and what is left
  contains all that follows the expression. -/
  error : ∀ {start fault stop nesting rest}, Expressions 1 nesting start.rest rest →
    evaluate start = (.error fault, stop) →
      (fault.isReading = true → fault = .tooDeep ∧ room < nesting) ∧ rest <:+ stop.rest

namespace Procedure

variable {α : Type} {room : Nat} {evaluate : Cursor → Except Fault Value × Cursor}
  {procedure : Procedure α} {due : Bool} {count : Nat}

/-- A procedure that succeeds has read what its shape asks for. -/
theorem HasShape.run_ok (reads : ReadsExpressions room evaluate)
    (shape : procedure.HasShape due count) {start stop : Cursor} {a : α}
    (h : procedure.run evaluate start = (.ok a, stop)) :
    ∃ operands, ∃ nesting ≤ room, Operand.SpansIf due start.rest operands ∧
      Expressions count nesting operands stop.rest := by
  induction shape generalizing start with
  | done result =>
    obtain ⟨-, rfl⟩ := Prod.mk.inj h
    exact ⟨start.rest, 0, Nat.zero_le _, rfl, .none _⟩
  | fail => cases h
  | immediate _ ih =>
    rw [run] at h
    cases read : Operand.read? start.rest with
    | none => simp [Cursor.readImmediate_none read, Cursor.fail] at h
    | some read_at =>
      obtain ⟨n, rest⟩ := read_at
      rw [Cursor.readImmediate_some read] at h
      obtain ⟨operands, nesting, le, rfl, within⟩ := ih n h
      exact ⟨_, nesting, le, Operand.spans_of_read? read, within⟩
  | operand _ ih =>
    rw [run] at h
    split at h
    · next v middle evaluated =>
      obtain ⟨first, first_le, one⟩ := reads.ok evaluated
      obtain ⟨_, others, others_le, rfl, more⟩ := ih v h
      exact ⟨start.rest, max first others, Nat.max_le.2 ⟨first_le, others_le⟩, rfl,
        one.cons more⟩
    · cases h
  | draw _ ih =>
    rw [run_draw] at h
    have drawn := ih _ h
    exact drawn

/-- A procedure that fails where all that its shape asks for is there has not read beyond it. -/
theorem HasShape.run_error (reads : ReadsExpressions room evaluate)
    (shape : procedure.HasShape due count) {start stop : Cursor} {fault : Fault} {nesting : Nat}
    {operands rest : Bytes} (h : procedure.run evaluate start = (.error fault, stop))
    (immediate : Operand.SpansIf due start.rest operands)
    (within : Expressions count nesting operands rest) :
    (fault.isReading = true → fault = .tooDeep ∧ room < nesting) ∧ rest <:+ stop.rest := by
  induction shape generalizing start operands nesting with
  | done => cases h
  | fail _ _ raised =>
    cases h
    refine ⟨fun reading => ?_, within.suffix.trans immediate.suffix⟩
    rw [raised] at reading
    cases reading
  | immediate _ ih =>
    obtain ⟨n, read⟩ := Operand.Spans.exists_read? immediate
    rw [run, Cursor.readImmediate_some read] at h
    exact ih n h rfl within
  | operand _ ih =>
    obtain rfl : operands = start.rest := immediate
    obtain ⟨first, others, middle, one, more, rfl⟩ := within.uncons
    rw [run] at h
    split at h
    · next v between evaluated =>
      obtain ⟨_, -, read⟩ := reads.ok evaluated
      obtain ⟨-, rfl⟩ := one.unique read
      obtain ⟨trouble, suffix⟩ := ih v h rfl more
      refine ⟨fun reading => ?_, suffix⟩
      obtain ⟨rfl, lt⟩ := trouble reading
      exact ⟨rfl, Nat.lt_of_lt_of_le lt (Nat.le_max_right _ _)⟩
    · next fault between evaluated =>
      cases h
      obtain ⟨trouble, suffix⟩ := reads.error one evaluated
      refine ⟨fun reading => ?_, more.suffix.trans suffix⟩
      obtain ⟨rfl, lt⟩ := trouble reading
      exact ⟨rfl, Nat.lt_of_lt_of_le lt (Nat.le_max_left _ _)⟩
  | draw _ ih =>
    rw [run_draw] at h
    exact ih _ h immediate within

end Procedure

/-- Only what follows an opcode byte is left to show: code that is empty or starts with a compact
literal is read in the same way everywhere. -/
theorem readsExpressions_of_opcode {room : Nat}
    {opcode : UInt8 → Cursor → Except Fault Value × Cursor}
    (ok : ∀ {byte start v stop}, opcode byte start = (.ok v, stop) →
      ∃ nesting ≤ room, Expressions 1 nesting (byte :: start.rest) stop.rest)
    (error : ∀ {byte declared start fault stop inner operands rest},
      Opcode.ofByte? byte = some declared →
      Operand.SpansIf declared.hasImmediate start.rest operands →
      Expressions declared.arity inner operands rest →
      opcode byte start = (.error fault, stop) →
        (fault.isReading = true → fault = .tooDeep ∧ room < inner + 1) ∧ rest <:+ stop.rest) :
    ReadsExpressions room (Cursor.readExpression opcode) where
  ok {start v stop} h := by
    cases code : start.rest with
    | nil =>
      rw [Cursor.readExpression_nil code] at h
      cases h
    | cons byte rest =>
      by_cases compact : compactBase ≤ byte
      · rw [Cursor.readExpression_compact code compact] at h
        cases h
        exact ⟨0, Nat.zero_le _, .one_compact compact⟩
      · rw [Cursor.readExpression_opcode code compact] at h
        exact ok h
  error {start fault stop nesting rest} one h := by
    cases code : start.rest with
    | nil =>
      rw [code] at one
      cases one
    | cons byte tail =>
      rw [code] at one
      cases one with
      | compact compact =>
        rw [Cursor.readExpression_compact code compact] at h
        cases h
      | opcode declared immediate within others =>
        obtain ⟨rfl, rfl⟩ := Expressions.none_iff.1 others
        rw [Cursor.readExpression_opcode code (Opcode.not_compact_of_ofByte? declared)] at h
        rw [Nat.max_zero]
        exact error declared immediate within h

variable (world : World) (frame : Frame)

/-- Whatever the opcodes do, evaluation reads the expressions that their shapes describe. -/
theorem evaluate_readsExpressions (room : Nat) :
    ReadsExpressions room (evaluate world frame room) := by
  induction room with
  | zero =>
    refine readsExpressions_of_opcode (fun h => by cases h) ?_
    intro byte opcode start fault stop inner operands rest declared immediate within h
    cases h
    exact ⟨fun _ => ⟨rfl, Nat.zero_lt_succ inner⟩, within.suffix.trans immediate.suffix⟩
  | succ room ih =>
    refine readsExpressions_of_opcode ?_ ?_
    · intro byte start v stop h
      cases declared : Opcode.ofByte? byte with
      | none =>
        rw [dispatch_undeclared declared] at h
        cases h
      | some opcode =>
        rw [dispatch_declared declared] at h
        obtain ⟨inner, ran, rfl⟩ := Cursor.eq_of_nested h
        obtain ⟨operands, nesting, le, immediate, within⟩ :=
          (opcode.handler_shape world frame).run_ok ih ran
        exact ⟨nesting + 1, Nat.succ_le_succ le, .one_opcode declared immediate within⟩
    · intro byte opcode start fault stop inner operands rest declared immediate within h
      rw [dispatch_declared declared] at h
      obtain ⟨left, ran, rfl⟩ := Cursor.eq_of_nested h
      obtain ⟨trouble, suffix⟩ :=
        (opcode.handler_shape world frame).run_error ih ran immediate within
      refine ⟨fun reading => ?_, suffix⟩
      obtain ⟨rfl, lt⟩ := trouble reading
      exact ⟨rfl, Nat.succ_lt_succ lt⟩

/-- Actions only ever take code off the front. -/
def CursorLaw.forward : CursorLaw where
  succeeds start stop := stop.rest <:+ start.rest
  fails start _ stop := stop.rest <:+ start.rest

theorem CursorLaw.forward_closed : CursorLaw.forward.Closed where
  refl _ := List.suffix_rfl
  trans first second := second.trans first
  trans_fails first second := second.trans first
  fail _ _ := List.suffix_rfl
  readByte := by
    apply governs_readByte
    · exact fun _ => List.suffix_rfl
    · intro start byte rest code
      change rest <:+ start.rest
      rw [code]
      exact List.suffix_cons byte rest
  readImmediate := by
    apply governs_readImmediate
    · exact fun _ => List.nil_suffix
    · exact fun read => (Operand.spans_of_read? read).suffix
  draw _ _ := List.suffix_rfl
  nested h := h
  nested_fails h := h

end NodeScript
