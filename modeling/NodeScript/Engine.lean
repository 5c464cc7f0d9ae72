import NodeScript.Evaluator

/-!
# The engine

An engine holds a world and the state of evaluation between calls from the host: the nesting depth,
which is zero between calls, the random generator and the most recent fault. Host operations that fail
record their fault and change nothing else.
-/
namespace NodeScript

structure Settings where
  /-- How many opcodes may be nested. -/
  maxDepth : Nat
  seed? : Option UInt64

def Settings.standard : Settings := ⟨16, none⟩

structure Engine extends World where
  settings : Settings
  depth : Nat
  generator : Generator
  lastFault : Option Fault

namespace Engine

/-- An engine for an image, with every global undefined and no role bound. The `entropy` seeds the
generator where the settings do not. -/
def start (image : Image) (settings : Settings) (entropy : UInt64) : Engine where
  image := image
  globals := Array.replicate image.numGlobals.toNat .undefined
  bindings := Array.replicate image.roles.size none
  packet := .empty
  now := 0
  fibers := .empty
  heap := .empty
  settings := settings
  depth := 0
  generator := ⟨settings.seed?.getD entropy⟩
  lastFault := none

/-- Records a fault. -/
def fail (engine : Engine) (fault : Fault) : Engine := { engine with lastFault := some fault }

/-- Hands out the most recent fault and forgets it. -/
def takeFault (engine : Engine) : Option Fault × Engine :=
  (engine.lastFault, { engine with lastFault := none })

def global? (engine : Engine) (index : Nat) : Option Value := engine.globals[index]?

def setGlobal (engine : Engine) (index : Nat) (v : Value) : Except Fault Unit × Engine :=
  if index < engine.globals.size then
    (.ok (), { engine with globals := engine.globals.setIfInBounds index v.normalized })
  else (.error .globalOutOfRange, engine.fail .globalOutOfRange)

/-- Changes what a role is bound to. -/
def setBinding (engine : Engine) (role : UInt32) (service? : Option UInt32) :
    Except Fault Unit × Engine :=
  if role.toNat < engine.bindings.size then
    (.ok (), { engine with bindings := engine.bindings.setIfInBounds role.toNat service? })
  else (.error .roleOutOfRange, engine.fail .roleOutOfRange)

def bindRole (engine : Engine) (role service : UInt32) : Except Fault Unit × Engine :=
  engine.setBinding role (some service)

def unbindRole (engine : Engine) (role : UInt32) : Except Fault Unit × Engine :=
  engine.setBinding role none

def setPacket (engine : Engine) (packet : Packet) : Engine := { engine with packet }

def setNow (engine : Engine) (now : UInt64) : Engine := { engine with now }

def setHeap (engine : Engine) (heap : Heap) : Engine := { engine with heap }

def setFibers (engine : Engine) (fibers : FiberTable) : Engine := { engine with fibers }

/-- Calls a function: a frame at the start of its code with every local undefined. -/
def openFrame (engine : Engine) (function : UInt32) (params : Array Value) (fiber : UInt32) :
    Except Fault Frame × Engine :=
  match engine.image.function? function with
  | some callee =>
    (.ok ⟨function, 0, Array.replicate callee.numLocals.toNat .undefined, params, fiber⟩, engine)
  | none => (.error .functionOutOfRange, engine.fail .functionOutOfRange)

/-- The cursor at the frame's position. -/
def cursor (engine : Engine) (frame : Frame) : Cursor :=
  ⟨engine.code frame, engine.depth, engine.generator, engine.lastFault⟩

/-- Lets an action move the cursor at the frame's position and takes over where it stopped. -/
def move {α : Type} (engine : Engine) (frame : Frame)
    (action : Cursor → Except Fault α × Cursor) : Except Fault α × Frame × Engine :=
  let start := engine.cursor frame
  let (result, stop) := action start
  (result,
    { frame with pc := frame.pc + (start.rest.length - stop.rest.length) },
    { engine with depth := stop.depth, generator := stop.generator, lastFault := stop.lastFault })

def fetchByte (engine : Engine) (frame : Frame) : Except Fault UInt8 × Frame × Engine :=
  engine.move frame Cursor.readByte

def fetchImmediate (engine : Engine) (frame : Frame) : Except Fault Int32 × Frame × Engine :=
  engine.move frame Cursor.readImmediate

/-- Runs a procedure whose operands are the expressions at the frame's position. -/
def perform {α : Type} (engine : Engine) (frame : Frame) (procedure : Procedure α) :
    Except Fault α × Frame × Engine :=
  engine.move frame
    (procedure.run (evaluate engine.toWorld frame (engine.settings.maxDepth - engine.depth)))

def evalValue (engine : Engine) (frame : Frame) : Except Fault Value × Frame × Engine :=
  engine.perform frame Procedure.value

def evalPair (engine : Engine) (frame : Frame) : Except Fault (Value × Value) × Frame × Engine :=
  engine.perform frame Procedure.pair

def evalUInt32 (engine : Engine) (frame : Frame) : Except Fault UInt32 × Frame × Engine :=
  engine.perform frame Procedure.uint32

def evalInt32 (engine : Engine) (frame : Frame) : Except Fault Int32 × Frame × Engine :=
  engine.perform frame Procedure.int32

def evalBinary64 (engine : Engine) (frame : Frame) : Except Fault Binary64 × Frame × Engine :=
  engine.perform frame Procedure.binary64

def evalBuffer (engine : Engine) (frame : Frame) : Except Fault Value × Frame × Engine :=
  engine.perform frame (Procedure.buffer engine.toWorld)

def evalBufferBytes (engine : Engine) (frame : Frame) : Except Fault Bytes × Frame × Engine :=
  engine.perform frame (Procedure.bufferBytes engine.toWorld)

def evalStringIndex (engine : Engine) (frame : Frame) : Except Fault UInt32 × Frame × Engine :=
  engine.perform frame (Procedure.stringIndex engine.toWorld)

def evalRoleIndex (engine : Engine) (frame : Frame) : Except Fault UInt32 × Frame × Engine :=
  engine.perform frame (Procedure.roleIndex engine.toWorld)

def evalObjectIndex (engine : Engine) (frame : Frame) : Except Fault UInt32 × Frame × Engine :=
  engine.perform frame Procedure.objectIndex

end Engine
end NodeScript
