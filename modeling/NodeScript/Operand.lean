import NodeScript.Bytes

/-!
# Integers in expression code

A compact literal is an integer from -16 to 111 in one byte that is at least `80`, which no opcode
is. An immediate operand is a byte below `F8`, or a head byte, which counts the magnitude bytes and
says whether to negate, and the magnitude with its most significant byte first.
-/
namespace NodeScript

/-- Bytes from this one on are compact literals, and those below it opcodes. -/
abbrev compactBase : UInt8 := 0x80

/-- What a compact literal byte exceeds its integer by, beyond the base. -/
abbrev compactBias : Nat := 16

/-- The integer of a compact literal byte. Bytes below the base wrap around. -/
def compactValue (byte : UInt8) : Int32 := Int32.ofInt ((byte - compactBase).toNat - compactBias)

/-- The compact literal of an integer, if it has one. -/
def compactByte? (n : Int32) : Option UInt8 :=
  if 0 ≤ n.toInt + compactBias ∧ n.toInt + compactBias < 128 then
    some (compactBase + UInt8.ofNat (n.toInt + compactBias).toNat)
  else none

namespace Operand

/-- The first head byte of the longer form. -/
abbrev firstHead : Nat := 0xF8

/-- How many magnitude bytes follow a head byte. -/
def magnitudeLength (head : UInt8) : Nat := head.toNat % 4 + 1

def negates (head : UInt8) : Bool := head.toNat / 4 % 2 = 1

/-- Reads an operand off the front of the code and gives back the code behind it, or nothing where
the code ends inside the operand. A magnitude of 2³¹ or more wraps around, and so does the negation
of the least integer. -/
def read? : Bytes → Option (Int32 × Bytes)
  | [] => none
  | head :: rest =>
    if head.toNat < firstHead then some (Int32.ofNat head.toNat, rest)
    else
      let magnitude : Bytes := rest.take (magnitudeLength head)
      if magnitude.length < magnitudeLength head then none
      else
        let n := Int32.ofNat magnitude.bigEndian
        some (if negates head then -n else n, rest.drop (magnitudeLength head))

/-- The bytes of a number below 2³², most significant first, without leading zeros. -/
def magnitudeBytes (n : Nat) : Bytes :=
  if n < 256 then [UInt8.ofNat n] else magnitudeBytes (n / 256) ++ [UInt8.ofNat n]

/-- The shortest operand that reads as the integer. -/
def write (n : Int32) : Bytes :=
  if 0 ≤ n.toInt ∧ n.toInt < firstHead then [UInt8.ofNat n.toInt.toNat]
  else
    let magnitude := magnitudeBytes n.toInt.natAbs
    let sign := if n.toInt < 0 then 4 else 0
    UInt8.ofNat (firstHead + sign + (magnitude.length - 1)) :: magnitude

end Operand
end NodeScript
