import NodeScript.Value

/-!
# The heap as expressions see it

The heap lives outside the engine. It answers what kind of object a handle points at and how long an
array is, and the two answers need not agree.
-/
namespace NodeScript

inductive HeapObject where
  | map | array
  deriving DecidableEq

def HeapObject.type : HeapObject → ObjectType
  | .map => .map
  | .array => .array

structure Heap where
  /-- The kind of the live object at an index, if there is one. -/
  object? : UInt32 → Option HeapObject
  /-- The number of elements of the array at an index. -/
  arrayLength? : UInt32 → Option Nat

namespace Heap

def empty : Heap := ⟨fun _ => none, fun _ => none⟩

def type? (heap : Heap) (index : UInt32) : Option ObjectType := (heap.object? index).map (·.type)

end Heap
end NodeScript
