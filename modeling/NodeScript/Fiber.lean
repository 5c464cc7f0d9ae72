import NodeScript.Value

/-!
# Fibers

The table of fibers. A fiber is found by its position, which changes when an earlier fiber goes, or by
its identifier, which does not.
-/
namespace NodeScript

inductive FiberStatus where
  | running | suspended | dead
  deriving DecidableEq

structure Fiber where
  id : UInt32
  status : FiberStatus
  /-- What the last call completed on the fiber returned. -/
  result : Value
  deriving DecidableEq

def Fiber.handle (fiber : Fiber) : Value := .handle .fiber fiber.id

/-- The fibers in the order they were started in, and the identifier of the next one. -/
structure FiberTable where
  fibers : List Fiber
  nextId : UInt32
  deriving DecidableEq

namespace FiberTable

def empty : FiberTable := ⟨[], 0⟩

/-- Adds a suspended fiber. Identifiers wrap around after 2³² fibers. -/
def spawn (table : FiberTable) : UInt32 × FiberTable :=
  (table.nextId, ⟨table.fibers ++ [⟨table.nextId, .suspended, .undefined⟩], table.nextId + 1⟩)

def find? (table : FiberTable) (id : UInt32) : Option Fiber :=
  table.fibers.find? fun fiber => fiber.id == id

def at? (table : FiberTable) (position : Nat) : Option Fiber := table.fibers[position]?

/-- Takes a fiber out of the table and hands it back dead. -/
def kill (table : FiberTable) (id : UInt32) : Option Fiber × FiberTable :=
  ((table.find? id).map fun fiber => { fiber with status := .dead },
    { table with fibers := table.fibers.eraseP fun fiber => fiber.id == id })

/-- Changes the first fiber with the identifier. -/
def modify (table : FiberTable) (id : UInt32) (change : Fiber → Fiber) : FiberTable :=
  { table with fibers := table.fibers.modify (table.fibers.findIdx fun fiber => fiber.id == id) change }

def setStatus (table : FiberTable) (id : UInt32) (status : FiberStatus) : FiberTable :=
  table.modify id fun fiber => { fiber with status }

def setResult (table : FiberTable) (id : UInt32) (result : Value) : FiberTable :=
  table.modify id fun fiber => { fiber with result }

end FiberTable
end NodeScript
