import Std.Data.HashMap
import NodeScript.Bytes
import NodeScript.Value

/-!
# Program images

An image is what a program is compiled to: the number of its globals and tables of byte strings,
doubles, roles and functions. Images are built by adding entries. An entry gets the next index of its
table, a table is full at 65535 entries, and the names of roles are distinct.
-/
namespace NodeScript

/-- A named place that a service on the bus can be bound to. -/
structure Role where
  name : String
  serviceClass : UInt32
  deriving DecidableEq

structure Function where
  name : String
  numLocals : UInt16
  numParams : UInt16
  code : Bytes
  deriving DecidableEq

/-- A function with no locals, parameters and code. -/
def Function.named (name : String) : Function := ⟨name, 0, 0, []⟩

inductive ImageTable where
  | string | float | role | function
  deriving DecidableEq

def ImageTable.name : ImageTable → String
  | .string => "string"
  | .float => "float"
  | .role => "role"
  | .function => "function"

inductive ImageError where
  | duplicateRole (name : String)
  | tableFull (table : ImageTable)
  deriving DecidableEq

def ImageError.message : ImageError → String
  | .duplicateRole name => "duplicate role: " ++ name
  | .tableFull table => "too many entries in " ++ table.name ++ " table"

structure Image where
  numGlobals : UInt16
  strings : Array Bytes
  floats : Array Binary64
  roles : Array Role
  /-- The index of each role by its name. -/
  roleIndex : Std.HashMap String UInt32
  functions : Array Function

namespace Image

def empty : Image := ⟨0, #[], #[], #[], ∅, #[]⟩

/-- The length at which a table is full. -/
abbrev tableLimit : Nat := 65535

/-- The index that the next entry of a table gets. -/
def nextIndex (table : ImageTable) (length : Nat) : Except ImageError UInt32 :=
  if length < tableLimit then .ok (UInt32.ofNat length) else .error (.tableFull table)

def withGlobals (image : Image) (numGlobals : UInt16) : Image := { image with numGlobals }

def addString (image : Image) (bytes : Bytes) : Except ImageError UInt32 × Image :=
  match nextIndex .string image.strings.size with
  | .ok index => (.ok index, { image with strings := image.strings.push bytes })
  | .error error => (.error error, image)

def addFloat (image : Image) (number : Binary64) : Except ImageError UInt32 × Image :=
  match nextIndex .float image.floats.size with
  | .ok index => (.ok index, { image with floats := image.floats.push number })
  | .error error => (.error error, image)

/-- A name that is taken is refused as such even when the table is full. -/
def addRole (image : Image) (role : Role) : Except ImageError UInt32 × Image :=
  if image.roleIndex.contains role.name then (.error (.duplicateRole role.name), image)
  else match nextIndex .role image.roles.size with
    | .ok index =>
      (.ok index,
        { image with
          roles := image.roles.push role
          roleIndex := image.roleIndex.insert role.name index })
    | .error error => (.error error, image)

def addFunction (image : Image) (function : Function) : Except ImageError UInt32 × Image :=
  match nextIndex .function image.functions.size with
  | .ok index => (.ok index, { image with functions := image.functions.push function })
  | .error error => (.error error, image)

def string? (image : Image) (index : UInt32) : Option Bytes := image.strings[index.toNat]?

/-- A float literal as a value, with every NaN the value `nan`. -/
def float? (image : Image) (index : UInt32) : Option Value :=
  image.floats[index.toNat]?.map Value.ofBinary64

def role? (image : Image) (index : UInt32) : Option Role := image.roles[index.toNat]?

def roleByName? (image : Image) (name : String) : Option UInt32 := image.roleIndex[name]?

def function? (image : Image) (index : UInt32) : Option Function := image.functions[index.toNat]?

/-- The index of the first function with the name. -/
def functionByName? (image : Image) (name : String) : Option UInt32 :=
  (image.functions.findIdx? fun function => function.name == name).map UInt32.ofNat

end Image
end NodeScript
