import NodeScript.Binary64Arithmetic

/-!
# Script values

The values an expression can have, their readings as a truth value, a 32-bit integer and a double,
and their object types. A value is normalized when it is not a double that holds a NaN: scripts know
one NaN only, the value `nan`.
-/
namespace NodeScript

/-- The tables outside the value that a handle can point into. -/
inductive HandleKind where
  | fiber | role | imageBuffer | gcObject
  deriving DecidableEq, Inhabited

namespace HandleKind

def all : List HandleKind := [.fiber, .role, .imageBuffer, .gcObject]

def code : HandleKind → Nat
  | .fiber => 1
  | .role => 2
  | .imageBuffer => 3
  | .gcObject => 4

def ofCode? (code : Nat) : Option HandleKind := all.find? fun kind => kind.code == code

end HandleKind

/-- What the `typeOf` opcode can answer. -/
inductive ObjectType where
  | undefined | number | map | array | buffer | role | bool | fiber | null
  deriving DecidableEq, Inhabited

namespace ObjectType

def all : List ObjectType :=
  [.undefined, .number, .map, .array, .buffer, .role, .bool, .fiber, .null]

def code : ObjectType → Nat
  | .undefined => 0
  | .number => 1
  | .map => 2
  | .array => 3
  | .buffer => 4
  | .role => 5
  | .bool => 6
  | .fiber => 7
  | .null => 8

def ofCode? (code : Nat) : Option ObjectType := all.find? fun type => type.code == code

end ObjectType

inductive Value where
  | double (number : Binary64)
  | int (number : Int32)
  | bool (truth : Bool)
  | null
  | undefined
  | nan
  /-- The payload of the packet being dispatched. -/
  | packetBuffer
  | handle (kind : HandleKind) (index : UInt32)
  deriving DecidableEq

namespace Value

instance : Inhabited Value := ⟨.undefined⟩

def ofBinary64 (number : Binary64) : Value := if number.isNaN then .nan else .double number

def normalized : Value → Value
  | .double number => ofBinary64 number
  | value => value

def isInt : Value → Bool
  | .int _ => true
  | _ => false

def isNaN : Value → Bool
  | .nan => true
  | .double number => number.isNaN
  | _ => false

/-- The index of a handle of the wanted kind. -/
def handleIndex? (wanted : HandleKind) : Value → Option UInt32
  | .handle kind index => if kind = wanted then some index else none
  | _ => none

def toBool : Value → Bool
  | .int number => number != 0
  | .double number => number.units != 0 && !number.isNaN
  | .bool truth => truth
  | .null | .undefined | .nan => false
  | .packetBuffer | .handle _ _ => true

/-- Doubles lose their fraction and are clamped; what is no number gives zero. -/
def toInt32 : Value → Int32
  | .int number => number
  | .double number => number.toInt32
  | .bool truth => if truth then 1 else 0
  | _ => 0

def toBinary64 : Value → Binary64
  | .int number => .ofInt number.toInt
  | .double number => number
  | .bool truth => .ofNat truth.toNat
  | _ => .nan

/-- The object type, given what the heap knows about its objects. A handle to an object the heap does
not know is undefined. -/
def typeOf (heapType? : UInt32 → Option ObjectType) : Value → ObjectType
  | .int _ | .double _ | .nan => .number
  | .bool _ => .bool
  | .null => .null
  | .undefined => .undefined
  | .packetBuffer => .buffer
  | .handle .fiber _ => .fiber
  | .handle .role _ => .role
  | .handle .imageBuffer _ => .buffer
  | .handle .gcObject index => (heapType? index).getD .undefined

end Value
end NodeScript
