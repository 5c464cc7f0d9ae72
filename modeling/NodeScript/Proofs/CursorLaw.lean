import NodeScript.Evaluator

/-!
# Laws between the cursor before and after

A law says how the cursor after an action is related to the cursor before it, apart for success and
for a fault. A law that composes and that reading, drawing, failing and nesting obey is obeyed by the
run of every procedure and by the evaluation of every code, malformed code included.
-/
namespace NodeScript

structure CursorLaw where
  succeeds : Cursor → Cursor → Prop
  fails : Cursor → Fault → Cursor → Prop

namespace CursorLaw

/-- The law for where an action led from `start`. -/
def Relates {α : Type} (law : CursorLaw) (start : Cursor) : Except Fault α × Cursor → Prop
  | (.ok _, stop) => law.succeeds start stop
  | (.error fault, stop) => law.fails start fault stop

def Governs {α : Type} (law : CursorLaw) (action : Cursor → Except Fault α × Cursor) : Prop :=
  ∀ start, law.Relates start (action start)

/-- The steps that evaluation is made of obey the law. -/
structure Closed (law : CursorLaw) : Prop where
  refl : ∀ cursor, law.succeeds cursor cursor
  trans : ∀ {start middle stop},
    law.succeeds start middle → law.succeeds middle stop → law.succeeds start stop
  trans_fails : ∀ {start middle fault stop},
    law.succeeds start middle → law.fails middle fault stop → law.fails start fault stop
  fail : ∀ fault cursor, law.fails cursor fault { cursor with lastFault := some fault }
  readByte : law.Governs Cursor.readByte
  readImmediate : law.Governs Cursor.readImmediate
  draw : ∀ cursor generator, law.succeeds cursor { cursor with generator }
  nested : ∀ {start stop}, law.succeeds { start with depth := start.depth + 1 } stop →
    law.succeeds start { stop with depth := stop.depth - 1 }
  nested_fails : ∀ {start fault stop}, law.fails { start with depth := start.depth + 1 } fault stop →
    law.fails start fault { stop with depth := stop.depth - 1 }

variable {law : CursorLaw} {α : Type}

theorem governs_readByte
    (overrun : ∀ start, law.fails start .codeOverrun { start with lastFault := some .codeOverrun })
    (read : ∀ {start byte rest}, start.rest = byte :: rest → law.succeeds start { start with rest }) :
    law.Governs Cursor.readByte := by
  intro start
  cases code : start.rest with
  | nil =>
    rw [Cursor.readByte_nil code]
    exact overrun start
  | cons byte rest =>
    rw [Cursor.readByte_cons code]
    exact read code

theorem governs_readImmediate
    (overrun : ∀ start, law.fails start .codeOverrun
      { start with rest := [], lastFault := some .codeOverrun })
    (read : ∀ {start n rest}, Operand.read? start.rest = some (n, rest) →
      law.succeeds start { start with rest }) :
    law.Governs Cursor.readImmediate := by
  intro start
  cases taken : Operand.read? start.rest with
  | none =>
    rw [Cursor.readImmediate_none taken]
    exact overrun start
  | some operand =>
    rw [Cursor.readImmediate_some taken]
    exact read taken

theorem Closed.relates_trans (closed : law.Closed) {start middle : Cursor}
    {outcome : Except Fault α × Cursor} (first : law.succeeds start middle)
    (second : law.Relates middle outcome) : law.Relates start outcome := by
  obtain ⟨_ | _, stop⟩ := outcome
  · exact closed.trans_fails first second
  · exact closed.trans first second

theorem Closed.governs_fail (closed : law.Closed) (fault : Fault) :
    law.Governs (Cursor.fail fault : Cursor → Except Fault α × Cursor) :=
  closed.fail fault

theorem Closed.governs_nested (closed : law.Closed) {action : Cursor → Except Fault α × Cursor}
    (governed : law.Governs action) : law.Governs (Cursor.nested action) := by
  intro start
  have h := governed { start with depth := start.depth + 1 }
  rw [Cursor.nested]
  cases heq : action { start with depth := start.depth + 1 } with
  | mk result stop =>
    rw [heq] at h
    cases result with
    | ok a => exact closed.nested h
    | error fault => exact closed.nested_fails h

/-- The first fault stops a run, and up to there its steps compose. -/
theorem Closed.governs_run (closed : law.Closed) {evaluate : Cursor → Except Fault Value × Cursor}
    (governed : law.Governs evaluate) (procedure : Procedure α) :
    law.Governs (procedure.run evaluate) := by
  induction procedure with
  | done result => exact closed.refl
  | fail fault => exact closed.governs_fail fault
  | immediate next ih =>
    intro start
    have h := closed.readImmediate start
    rw [Procedure.run]
    split
    · next n middle heq =>
      rw [heq] at h
      exact closed.relates_trans h (ih n middle)
    · next fault middle heq =>
      rw [heq] at h
      exact h
  | operand next ih =>
    intro start
    have h := governed start
    rw [Procedure.run]
    split
    · next v middle heq =>
      rw [heq] at h
      exact closed.relates_trans h (ih v middle)
    · next fault middle heq =>
      rw [heq] at h
      exact h
  | draw sample next ih =>
    intro start
    exact closed.relates_trans (closed.draw start (sample start.generator).2) (ih _ _)

theorem Closed.governs_readExpression (closed : law.Closed)
    {opcode : UInt8 → Cursor → Except Fault Value × Cursor}
    (governed : ∀ byte, law.Governs (opcode byte)) :
    law.Governs (Cursor.readExpression opcode) := by
  intro start
  have h := closed.readByte start
  rw [Cursor.readExpression]
  split
  · next fault middle heq =>
    rw [heq] at h
    exact h
  · next byte middle heq =>
    rw [heq] at h
    split
    · exact h
    · exact closed.relates_trans h (governed byte middle)

theorem Closed.governs_dispatch (closed : law.Closed) (world : World) (frame : Frame)
    {evaluate : Cursor → Except Fault Value × Cursor} (governed : law.Governs evaluate)
    (byte : UInt8) : law.Governs (dispatch world frame evaluate byte) := by
  intro start
  rw [dispatch]
  split
  · exact closed.governs_run governed _ start
  · exact closed.governs_fail _ start

/-- Evaluation obeys every law that its steps obey. -/
theorem Closed.governs_evaluate (closed : law.Closed) (world : World) (frame : Frame) (room : Nat) :
    law.Governs (evaluate world frame room) := by
  induction room with
  | zero => exact closed.governs_readExpression fun _ => closed.governs_fail _
  | succ room ih =>
    exact closed.governs_readExpression fun byte =>
      closed.governs_nested (closed.governs_dispatch world frame ih byte)

theorem Closed.governs_run_evaluate (closed : law.Closed) (world : World) (frame : Frame)
    (room : Nat) (procedure : Procedure α) : law.Governs (procedure.run (evaluate world frame room)) :=
  closed.governs_run (closed.governs_evaluate world frame room) procedure

end CursorLaw
end NodeScript
