import NodeScript.Evaluator

/-!
# What procedures and evaluation can result in

A procedure that is given only operands of some kind ends only in results of some kind. If the
procedures of all opcodes make values of a kind out of operands of that kind, then evaluation, on
whatever code, has no other values.
-/
namespace NodeScript

namespace Procedure

variable {α β : Type} {operands : Value → Prop}

/-- Given operands of which `operands` holds, and whatever immediate operands and random samples, the
procedure ends in a fault or in a result of which `results` holds. -/
inductive Ensures (operands : Value → Prop) (results : α → Prop) : Procedure α → Prop where
  | done {result : α} (holds : results result) : Ensures operands results (.done result)
  | fail (fault : Fault) : Ensures operands results (.fail fault)
  | immediate {next : Int32 → Procedure α} (rest : ∀ n, Ensures operands results (next n)) :
      Ensures operands results (.immediate next)
  | operand {next : Value → Procedure α} (rest : ∀ v, operands v → Ensures operands results (next v)) :
      Ensures operands results (.operand next)
  | draw {sample : Generator → Value × Generator} {next : Value → Procedure α}
      (rest : ∀ {generator v after}, sample generator = (v, after) →
        Ensures operands results (next v)) : Ensures operands results (.draw sample next)

namespace Ensures

variable {middle : α → Prop} {results : β → Prop} {procedure : Procedure α} {f : α → Procedure β}

theorem bind (first : procedure.Ensures operands middle)
    (rest : ∀ a, middle a → (f a).Ensures operands results) :
    (procedure >>= f).Ensures operands results := by
  induction first with
  | done holds => exact rest _ holds
  | fail fault => exact .fail fault
  | immediate _ ih => exact .immediate ih
  | operand _ ih => exact .operand ih
  | draw _ ih => exact .draw ih

theorem true_intro (procedure : Procedure α) : procedure.Ensures operands fun _ => True := by
  induction procedure with
  | done => exact .done trivial
  | fail fault => exact .fail fault
  | immediate _ ih => exact .immediate ih
  | operand _ ih => exact .operand fun v _ => ih v
  | draw _ _ ih => exact .draw fun _ => ih _

/-- Nothing need be known about the first result. -/
theorem after (rest : ∀ a, (f a).Ensures operands results) :
    (procedure >>= f).Ensures operands results :=
  (true_intro procedure).bind fun a _ => rest a

theorem value_bind {f : Value → Procedure β}
    (rest : ∀ v, operands v → (f v).Ensures operands results) : (value >>= f).Ensures operands results :=
  .operand rest

theorem require {fault : Fault} {a? : Option β} (found : ∀ a, a? = some a → results a) :
    (Procedure.require fault a?).Ensures operands results := by
  cases a? with
  | none => exact .fail fault
  | some a => exact .done (found a rfl)

end Ensures

/-- What a procedure ensures holds of the result of every successful run, if the evaluation that
answers its requests only has operands as assumed. -/
theorem Ensures.of_run_ok {evaluate : Cursor → Except Fault Value × Cursor}
    (evaluated : ∀ {start v stop}, evaluate start = (.ok v, stop) → operands v)
    {results : α → Prop} {procedure : Procedure α} (ensured : procedure.Ensures operands results)
    {start stop : Cursor} {result : α} (h : procedure.run evaluate start = (.ok result, stop)) :
    results result := by
  induction ensured generalizing start with
  | done holds =>
    cases h
    exact holds
  | fail => cases h
  | immediate _ ih =>
    rw [run] at h
    split at h
    · next n middle read => exact ih n h
    · cases h
  | operand _ ih =>
    rw [run] at h
    split at h
    · next v middle answered => exact ih v (evaluated answered) h
    · cases h
  | draw _ ih =>
    rw [run_draw] at h
    exact ih rfl h

end Procedure

/-- A value comes from a compact literal or from an opcode. -/
theorem Cursor.of_readExpression_ok {opcode : UInt8 → Cursor → Except Fault Value × Cursor}
    {start stop : Cursor} {v : Value} (h : start.readExpression opcode = (.ok v, stop)) :
    (∃ n, v = .int n) ∨ ∃ byte middle, opcode byte middle = (.ok v, stop) := by
  cases code : start.rest with
  | nil =>
    rw [readExpression_nil code] at h
    cases h
  | cons byte rest =>
    by_cases compact : compactBase ≤ byte
    · rw [readExpression_compact code compact] at h
      cases h
      exact .inl ⟨compactValue byte, rfl⟩
    · rw [readExpression_opcode code compact] at h
      exact .inr ⟨byte, { start with rest }, h⟩

/-- Values of a kind that holds all integers, and that no procedure of an opcode leaves, are the only
ones that evaluation has. -/
theorem of_evaluate_ok {world : World} {frame : Frame} {kind : Value → Prop}
    (integers : ∀ n, kind (.int n))
    (opcodes : ∀ opcode : Opcode, (opcode.handler world frame).Ensures kind kind) {room : Nat}
    {start stop : Cursor} {v : Value} (h : evaluate world frame room start = (.ok v, stop)) :
    kind v := by
  induction room generalizing start stop v with
  | zero =>
    obtain ⟨n, rfl⟩ | ⟨byte, middle, failed⟩ := Cursor.of_readExpression_ok h
    · exact integers n
    · cases failed
  | succ room ih =>
    obtain ⟨n, rfl⟩ | ⟨byte, middle, nested⟩ := Cursor.of_readExpression_ok h
    · exact integers n
    · obtain ⟨inner, dispatched, -⟩ := Cursor.eq_of_nested nested
      cases declared : Opcode.ofByte? byte with
      | none =>
        rw [dispatch_undeclared declared] at dispatched
        cases dispatched
      | some opcode =>
        rw [dispatch_declared declared] at dispatched
        exact (opcodes opcode).of_run_ok ih dispatched

end NodeScript
