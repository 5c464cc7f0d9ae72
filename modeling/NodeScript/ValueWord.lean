import NodeScript.Value

/-!
# Values in one 64-bit word

A double is stored as its bits. Everything else is stored as a NaN that no operation produces: the
sixteen leading bits are a tag, the other forty-eight a payload.

* tag `FFFF`: an integer, its 32 bits in the low half;
* tag `FFFE`: null, undefined, false, true and the packet buffer, numbered from zero;
* tag `FFFD`: a handle, its kind above the 32 bits of its index.

The NaN itself is stored as the quiet NaN with a clear sign.
-/
namespace NodeScript.Value

/-- The weight of a tag's lowest bit in a word. -/
abbrev tagWeight : Nat := 0x1000000000000

/-- The weight of a handle kind's lowest bit in a payload. -/
abbrev kindWeight : Nat := 0x100000000

/-- The word with the given tag and payload. -/
def tagged (tag payload : Nat) : UInt64 := UInt64.ofNat (tag * tagWeight + payload)

abbrev intTag : Nat := 0xFFFF

abbrev specialTag : Nat := 0xFFFE

abbrev handleTag : Nat := 0xFFFD

def toWord : Value → UInt64
  | .double number => if number.isNaN then Binary64.nan.bits else number.bits
  | .int number => tagged intTag number.toUInt32.toNat
  | .null => tagged specialTag 0
  | .undefined => tagged specialTag 1
  | .bool false => tagged specialTag 2
  | .bool true => tagged specialTag 3
  | .packetBuffer => tagged specialTag 4
  | .nan => Binary64.nan.bits
  | .handle kind index => tagged handleTag (kind.code * kindWeight + index.toNat)

/-- The value numbered by the payload of a special word. -/
def ofSpecial? : Nat → Option Value
  | 0 => some .null
  | 1 => some .undefined
  | 2 => some (.bool false)
  | 3 => some (.bool true)
  | 4 => some .packetBuffer
  | _ => none

/-- Reads a word back. Words under the special and the handle tag that no value is stored as are
refused. -/
def ofWord? (word : UInt64) : Option Value :=
  let tag := word.toNat / tagWeight
  let payload := word.toNat % tagWeight
  if tag = intTag then some (.int (UInt32.ofNat payload).toInt32)
  else if tag = specialTag then ofSpecial? payload
  else if tag = handleTag then
    (HandleKind.ofCode? (payload / kindWeight)).map fun kind => .handle kind (UInt32.ofNat payload)
  else some (ofBinary64 ⟨word⟩)

end NodeScript.Value
