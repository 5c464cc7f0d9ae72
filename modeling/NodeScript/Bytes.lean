/-!
# Byte strings

A number is spelled in bytes with its least significant byte first in packets and image strings, and
with its most significant byte first in expression code.
-/
namespace NodeScript

abbrev Bytes := List UInt8

namespace Bytes

/-- The number spelled with its least significant byte first. -/
def littleEndian : Bytes → Nat
  | [] => 0
  | byte :: rest => byte.toNat + 256 * littleEndian rest

/-- The number spelled with its most significant byte first. -/
def bigEndian (bytes : Bytes) : Nat :=
  bytes.foldl (fun number byte => 256 * number + byte.toNat) 0

end Bytes
end NodeScript
