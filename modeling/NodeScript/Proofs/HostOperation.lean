import NodeScript.Engine

/-!
# Operations of the host

Everything a host can do to an engine between two points in time, with any arguments and on any frame,
is an operation. What every operation keeps holds after every run of operations.
-/
namespace NodeScript

/-- An operation of the host. Frames belong to the host, so an operation may come with any frame, at
any position and with any values in it. -/
inductive HostOperation where
  | fail (fault : Fault)
  | takeFault
  | setGlobal (index : Nat) (v : Value)
  | bindRole (role service : UInt32)
  | unbindRole (role : UInt32)
  | setPacket (packet : Packet)
  | setNow (now : UInt64)
  | setHeap (heap : Heap)
  | spawnFiber
  | killFiber (id : UInt32)
  | setFiberStatus (id : UInt32) (status : FiberStatus)
  | setFiberResult (id : UInt32) (result : Value)
  | openFrame (function : UInt32) (params : Array Value) (fiber : UInt32)
  | fetchByte (frame : Frame)
  | fetchImmediate (frame : Frame)
  | evalValue (frame : Frame)
  | evalPair (frame : Frame)
  | evalUInt32 (frame : Frame)
  | evalInt32 (frame : Frame)
  | evalBinary64 (frame : Frame)
  | evalBuffer (frame : Frame)
  | evalBufferBytes (frame : Frame)
  | evalStringIndex (frame : Frame)
  | evalRoleIndex (frame : Frame)
  | evalObjectIndex (frame : Frame)

namespace HostOperation

/-- Whether an answer is a success or a fault, and the engine behind it. -/
def answered {α : Type} (answer : Except Fault α × Frame × Engine) : Except Fault Unit × Engine :=
  (answer.1.map fun _ => (), answer.2.2)

/-- The success or the fault of an operation, and the engine after it. -/
def apply (engine : Engine) : HostOperation → Except Fault Unit × Engine
  | fail fault => (.error fault, engine.fail fault)
  | takeFault => (.ok (), engine.takeFault.2)
  | setGlobal index v => engine.setGlobal index v
  | bindRole role service => engine.bindRole role service
  | unbindRole role => engine.unbindRole role
  | setPacket packet => (.ok (), engine.setPacket packet)
  | setNow now => (.ok (), engine.setNow now)
  | setHeap heap => (.ok (), engine.setHeap heap)
  | spawnFiber => (.ok (), engine.setFibers engine.fibers.spawn.2)
  | killFiber id => (.ok (), engine.setFibers (engine.fibers.kill id).2)
  | setFiberStatus id status => (.ok (), engine.setFibers (engine.fibers.setStatus id status))
  | setFiberResult id result => (.ok (), engine.setFibers (engine.fibers.setResult id result))
  | openFrame function params fiber =>
    let (frame, engine) := engine.openFrame function params fiber
    (frame.map fun _ => (), engine)
  | fetchByte frame => answered (engine.fetchByte frame)
  | fetchImmediate frame => answered (engine.fetchImmediate frame)
  | evalValue frame => answered (engine.evalValue frame)
  | evalPair frame => answered (engine.evalPair frame)
  | evalUInt32 frame => answered (engine.evalUInt32 frame)
  | evalInt32 frame => answered (engine.evalInt32 frame)
  | evalBinary64 frame => answered (engine.evalBinary64 frame)
  | evalBuffer frame => answered (engine.evalBuffer frame)
  | evalBufferBytes frame => answered (engine.evalBufferBytes frame)
  | evalStringIndex frame => answered (engine.evalStringIndex frame)
  | evalRoleIndex frame => answered (engine.evalRoleIndex frame)
  | evalObjectIndex frame => answered (engine.evalObjectIndex frame)

/-- What is left of the operation in the world. Assigning and binding beyond the tables leave nothing,
and so does everything that only reads. -/
def onWorld (world : World) : HostOperation → World
  | setGlobal index v => { world with globals := world.globals.setIfInBounds index v.normalized }
  | bindRole role service =>
    { world with bindings := world.bindings.setIfInBounds role.toNat (some service) }
  | unbindRole role => { world with bindings := world.bindings.setIfInBounds role.toNat none }
  | setPacket packet => { world with packet }
  | setNow now => { world with now }
  | setHeap heap => { world with heap }
  | spawnFiber => { world with fibers := world.fibers.spawn.2 }
  | killFiber id => { world with fibers := (world.fibers.kill id).2 }
  | setFiberStatus id status => { world with fibers := world.fibers.setStatus id status }
  | setFiberResult id result => { world with fibers := world.fibers.setResult id result }
  | _ => world

end HostOperation

namespace Engine

theorem setGlobal_toWorld (engine : Engine) (index : Nat) (v : Value) :
    (engine.setGlobal index v).2.toWorld =
      { engine.toWorld with globals := engine.globals.setIfInBounds index v.normalized } := by
  rw [setGlobal]
  split
  case isTrue inside => rfl
  case isFalse outside =>
    rw [Array.setIfInBounds_eq_of_size_le (Nat.le_of_not_lt outside)]
    rfl

theorem setBinding_toWorld (engine : Engine) (role : UInt32) (service? : Option UInt32) :
    (engine.setBinding role service?).2.toWorld =
      { engine.toWorld with bindings := engine.bindings.setIfInBounds role.toNat service? } := by
  rw [setBinding]
  split
  case isTrue inside => rfl
  case isFalse outside =>
    rw [Array.setIfInBounds_eq_of_size_le (Nat.le_of_not_lt outside)]
    rfl

/-- What an operation does to the world, whether it succeeds or fails. -/
theorem apply_toWorld (engine : Engine) (operation : HostOperation) :
    (operation.apply engine).2.toWorld = operation.onWorld engine.toWorld := by
  cases operation with
  | setGlobal index v => exact engine.setGlobal_toWorld index v
  | bindRole role service => exact engine.setBinding_toWorld role (some service)
  | unbindRole role => exact engine.setBinding_toWorld role none
  | openFrame function params fiber =>
    simp only [HostOperation.apply, Engine.openFrame]
    split <;> rfl
  | _ => rfl

section
variable {motive : ∀ {α : Type}, Nat → (Engine → Frame → Except Fault α × Frame × Engine) → Prop}

/-- What is true of each of the evaluations that a host can ask for, and of how many expressions it
evaluates. -/
structure EveryEvaluation
    (motive : ∀ {α : Type}, Nat → (Engine → Frame → Except Fault α × Frame × Engine) → Prop) :
    Prop where
  value : motive 1 evalValue
  pair : motive 2 evalPair
  uint32 : motive 1 evalUInt32
  int32 : motive 1 evalInt32
  binary64 : motive 1 evalBinary64
  buffer : motive 1 evalBuffer
  bufferBytes : motive 1 evalBufferBytes
  stringIndex : motive 1 evalStringIndex
  roleIndex : motive 1 evalRoleIndex
  objectIndex : motive 1 evalObjectIndex

/-- Every evaluation runs a procedure. -/
theorem EveryEvaluation.of_perform
    (perform : ∀ {α : Type} (count : Nat) (procedure : World → Procedure α),
      motive count fun engine frame => engine.perform frame (procedure engine.toWorld)) :
    EveryEvaluation motive where
  value := perform 1 fun _ => .value
  pair := perform 2 fun _ => .pair
  uint32 := perform 1 fun _ => .uint32
  int32 := perform 1 fun _ => .int32
  binary64 := perform 1 fun _ => .binary64
  buffer := perform 1 .buffer
  bufferBytes := perform 1 .bufferBytes
  stringIndex := perform 1 .stringIndex
  roleIndex := perform 1 .roleIndex
  objectIndex := perform 1 fun _ => .objectIndex

end

/-- The engine after one operation after another, whether they succeed or fail. -/
def runAll (engine : Engine) (operations : List HostOperation) : Engine :=
  operations.foldl (fun engine operation => (operation.apply engine).2) engine

theorem runAll_concat (engine : Engine) (operations : List HostOperation) (operation : HostOperation) :
    engine.runAll (operations ++ [operation]) = (operation.apply (engine.runAll operations)).2 :=
  List.foldl_append

/-- What every operation keeps is kept by every run. -/
theorem runAll_induction {motive : Engine → Prop}
    (step : ∀ engine operation, motive engine → motive (HostOperation.apply engine operation).2)
    {engine : Engine} (start : motive engine) (operations : List HostOperation) :
    motive (engine.runAll operations) := by
  induction operations generalizing engine with
  | nil => exact start
  | cons operation operations ih => exact ih (step engine operation start)

end Engine
end NodeScript
