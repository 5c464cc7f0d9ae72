import NodeScript.Fault
import NodeScript.Generator
import NodeScript.Opcode
import NodeScript.World

/-!
# Procedures

What an opcode does is a procedure: a tree of requests for immediate operands, for the values of
operand expressions and for random samples, in the order in which they are made, that ends in a
result or a fault. A procedure does not know where the operands come from.
-/
namespace NodeScript

inductive Procedure (α : Type) where
  | done (result : α)
  | fail (fault : Fault)
  | immediate (next : Int32 → Procedure α)
  | operand (next : Value → Procedure α)
  | draw (sample : Generator → Value × Generator) (next : Value → Procedure α)

namespace Procedure

def bind {α β : Type} : Procedure α → (α → Procedure β) → Procedure β
  | done result, f => f result
  | fail fault, _ => fail fault
  | immediate next, f => immediate fun n => (next n).bind f
  | operand next, f => operand fun v => (next v).bind f
  | draw sample next, f => draw sample fun v => (next v).bind f

instance : Monad Procedure where
  pure := done
  bind := bind

section
variable {α β : Type} (f : α → Procedure β)

@[simp] theorem pure_eq_done (a : α) : (pure a : Procedure α) = done a := rfl

@[simp] theorem done_bind (a : α) : done a >>= f = f a := rfl

@[simp] theorem fail_bind (fault : Fault) : fail fault >>= f = fail fault := rfl

@[simp] theorem immediate_bind (next : Int32 → Procedure α) :
    immediate next >>= f = immediate fun n => next n >>= f := rfl

@[simp] theorem operand_bind (next : Value → Procedure α) :
    operand next >>= f = operand fun v => next v >>= f := rfl

@[simp] theorem draw_bind (sample : Generator → Value × Generator) (next : Value → Procedure α) :
    draw sample next >>= f = draw sample fun v => next v >>= f := rfl

end

theorem map_id {α : Type} (x : Procedure α) : id <$> x = x := by
  induction x with
  | done | fail => rfl
  | immediate next ih => exact congrArg immediate (funext ih)
  | operand next ih => exact congrArg operand (funext ih)
  | draw sample next ih => exact congrArg (draw sample) (funext ih)

theorem bind_bind {α β γ : Type} (x : Procedure α) (f : α → Procedure β) (g : β → Procedure γ) :
    x >>= f >>= g = x >>= fun a => f a >>= g := by
  induction x with
  | done | fail => rfl
  | immediate next ih => exact congrArg immediate (funext ih)
  | operand next ih => exact congrArg operand (funext ih)
  | draw sample next ih => exact congrArg (draw sample) (funext ih)

instance : LawfulMonad Procedure :=
  LawfulMonad.mk' Procedure map_id (fun _ _ => rfl) bind_bind

/-- The value of an optional entry, or a fault where there is none. -/
def require {α : Type} (fault : Fault) : Option α → Procedure α
  | some a => done a
  | none => fail fault

/-- The next immediate operand. -/
def nextImmediate : Procedure Int32 := immediate done

/-- The value of the next operand expression. -/
def value : Procedure Value := operand done

/-- The values of the next two operand expressions. -/
def pair : Procedure (Value × Value) := do
  let left ← value
  let right ← value
  pure (left, right)

def int32 : Procedure Int32 := do
  let v ← value
  pure v.toInt32

def uint32 : Procedure UInt32 := do
  let v ← value
  pure v.toInt32.toUInt32

def binary64 : Procedure Binary64 := do
  let v ← value
  pure v.toBinary64

variable (world : World)

def checkString (index : UInt32) : Procedure UInt32 :=
  if index.toNat < world.image.strings.size then pure index else fail .stringOutOfRange

def checkRole (index : UInt32) : Procedure UInt32 :=
  if index.toNat < world.image.roles.size then pure index else fail .roleOutOfRange

/-- The packet buffer or the handle of a byte string of the image. -/
def buffer : Procedure Value := do
  let v ← value
  match v with
  | .packetBuffer => pure v
  | .handle .imageBuffer index => do
    let _ ← checkString world index
    pure v
  | _ => fail .expectedBuffer

def bufferBytes : Procedure Bytes := do
  let v ← buffer world
  pure ((world.bytes? v).getD [])

/-- The index of a byte string of the image. -/
def stringIndex : Procedure UInt32 := do
  let v ← value
  let index ← require .expectedString (v.handleIndex? .imageBuffer)
  checkString world index

/-- The index of a role of the image. -/
def roleIndex : Procedure UInt32 := do
  let v ← value
  let index ← require .expectedRole (v.handleIndex? .role)
  checkRole world index

/-- The index of a heap object, which may or may not be alive. -/
def objectIndex : Procedure UInt32 := do
  let v ← value
  require .expectedMap (v.handleIndex? .gcObject)

end Procedure
end NodeScript
