import NodeScript.Fault
import NodeScript.Generator
import NodeScript.Operand

/-!
# Cursors

What evaluation moves and changes: the code that is left to read, the nesting depth, the generator and
the most recent fault. An action on a cursor gives back a cursor also where it fails, and every
failure is recorded in it.
-/
namespace NodeScript

structure Cursor where
  /-- The code that has not been read. -/
  rest : Bytes
  /-- The number of opcodes being evaluated. -/
  depth : Nat
  generator : Generator
  lastFault : Option Fault

namespace Cursor

/-- Records a fault and stops with it. -/
def fail {α : Type} (fault : Fault) (cursor : Cursor) : Except Fault α × Cursor :=
  (.error fault, { cursor with lastFault := some fault })

def readByte (cursor : Cursor) : Except Fault UInt8 × Cursor :=
  match cursor.rest with
  | [] => cursor.fail .codeOverrun
  | byte :: rest => (.ok byte, { cursor with rest })

/-- Code that ends inside the operand is read to its end. -/
def readImmediate (cursor : Cursor) : Except Fault Int32 × Cursor :=
  match Operand.read? cursor.rest with
  | some (n, rest) => (.ok n, { cursor with rest })
  | none => { cursor with rest := [] }.fail .codeOverrun

/-- Lets an action run one opcode deeper. -/
def nested {α : Type} (action : Cursor → Except Fault α × Cursor) (cursor : Cursor) :
    Except Fault α × Cursor :=
  let (result, cursor) := action { cursor with depth := cursor.depth + 1 }
  (result, { cursor with depth := cursor.depth - 1 })

variable {cursor : Cursor}

theorem readByte_nil (h : cursor.rest = []) : cursor.readByte = cursor.fail .codeOverrun := by
  rw [readByte, h]

theorem readByte_cons {byte : UInt8} {rest : Bytes} (h : cursor.rest = byte :: rest) :
    cursor.readByte = (.ok byte, { cursor with rest }) := by
  rw [readByte, h]

theorem readImmediate_some {n : Int32} {rest : Bytes} (h : Operand.read? cursor.rest = some (n, rest)) :
    cursor.readImmediate = (.ok n, { cursor with rest }) := by
  rw [readImmediate, h]

theorem readImmediate_none (h : Operand.read? cursor.rest = none) :
    cursor.readImmediate = { cursor with rest := [] }.fail .codeOverrun := by
  rw [readImmediate, h]

/-- Where a nested action led, the action led one level deeper. -/
theorem eq_of_nested {α : Type} {action : Cursor → Except Fault α × Cursor}
    {result : Except Fault α} {stop : Cursor} (h : nested action cursor = (result, stop)) :
    ∃ inner, action { cursor with depth := cursor.depth + 1 } = (result, inner) ∧
      stop = { inner with depth := inner.depth - 1 } := by
  obtain ⟨rfl, rfl⟩ := Prod.mk.inj h
  exact ⟨_, rfl, rfl⟩

end Cursor
end NodeScript
