import NodeScript.Bytes

/-!
# Bus packets

The packet being dispatched, as expressions see it. A packet declares the size of its payload, and
what it stores may be longer or shorter: the payload is what is both declared and stored.
-/
namespace NodeScript

structure Packet where
  flags : UInt8
  serviceSize : UInt32
  command : UInt32
  data : Bytes
  deriving DecidableEq

namespace Packet

def empty : Packet := ⟨0, 0, 0, []⟩

/-- A packet from a service, whose declared size is what it stores. -/
def report (command : UInt32) (data : Bytes) : Packet :=
  ⟨0, UInt32.ofNat data.length, command, data⟩

/-- A packet to a service. -/
def request (command : UInt32) (data : Bytes) : Packet := { report command data with flags := 1 }

def isCommand (packet : Packet) : Bool := packet.flags &&& 1 != 0

def isReport (packet : Packet) : Bool := !packet.isCommand

def isEvent (packet : Packet) : Bool := packet.isReport && packet.command &&& 0x8000 != 0

def eventCode (packet : Packet) : UInt32 := packet.command &&& 0xFF

def isRegisterGet (packet : Packet) : Bool := packet.command >>> 12 == 1

def registerCode (packet : Packet) : UInt32 := packet.command &&& 0xFFF

def payload (packet : Packet) : Bytes := packet.data.take packet.serviceSize.toNat

/-- Whether the data at an offset are the given bytes and a zero byte, all within the declared size. -/
def matchesTerminated (packet : Packet) (offset : Nat) (bytes : Bytes) : Bool :=
  let terminator := offset + bytes.length
  decide (terminator < packet.serviceSize.toNat) && packet.data[terminator]? == some 0 &&
    (packet.data.drop offset).take bytes.length == bytes

end Packet
end NodeScript
