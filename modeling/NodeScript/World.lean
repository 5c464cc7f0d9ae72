import NodeScript.Fault
import NodeScript.Fiber
import NodeScript.Heap
import NodeScript.Image
import NodeScript.Packet

/-!
# What an evaluation reads

The world is everything around a frame that expressions can ask about and that evaluating them leaves
alone. A frame is one call of a function of the image.
-/
namespace NodeScript

structure World where
  image : Image
  globals : Array Value
  /-- For each role of the image the service it is bound to, if any. -/
  bindings : Array (Option UInt32)
  packet : Packet
  /-- The time in milliseconds. -/
  now : UInt64
  fibers : FiberTable
  heap : Heap

namespace World

def service? (world : World) (role : UInt32) : Option UInt32 := world.bindings[role.toNat]?.join

def isBound (world : World) (role : UInt32) : Bool := (world.service? role).isSome

/-- The bytes behind a value that is a buffer. -/
def bytes? (world : World) : Value → Option Bytes
  | .packetBuffer => some world.packet.payload
  | .handle .imageBuffer index => world.image.string? index
  | _ => none

end World

structure Frame where
  function : UInt32
  /-- The position in the function's code that evaluation goes on from. -/
  pc : Nat
  locals : Array Value
  params : Array Value
  /-- The identifier of the fiber the call runs on. -/
  fiber : UInt32

/-- The code from the frame's position on. -/
def World.code (world : World) (frame : Frame) : Bytes :=
  match world.image.function? frame.function with
  | some function => function.code.drop frame.pc
  | none => []

end NodeScript
