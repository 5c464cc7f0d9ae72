import NodeScript.Bytes
import NodeScript.Value

/-!
# Number formats

A number format says how a number lies in a byte string: as an unsigned or signed integer or as a
binary floating-point number, in one, two, four or eight bytes, least significant byte first, scaled
by a power of two. A format is itself one byte, with the kind in the low nibble and the shift in the
high one.
-/
namespace NodeScript

inductive Numeral where
  | unsigned | signed | float
  deriving DecidableEq

/-- A numeral system and the binary logarithm of the number of bytes. -/
structure NumberKind where
  numeral : Numeral
  logBytes : Fin 4
  deriving DecidableEq

namespace NumberKind

def bytes (kind : NumberKind) : Nat := 1 <<< kind.logBytes.val

def bits (kind : NumberKind) : Nat := 8 * kind.bytes

def isPlainInt (kind : NumberKind) : Bool := kind.numeral ≠ .float

/-- The numeral system's number above the two bits of the size. -/
def code (kind : NumberKind) : Nat :=
  (match kind.numeral with | .unsigned => 0 | .signed => 4 | .float => 8) + kind.logBytes.val

def ofCode? (code : Nat) : Option NumberKind :=
  let logBytes : Fin 4 := Fin.ofNat 4 code
  match code / 4 with
  | 0 => some ⟨.unsigned, logBytes⟩
  | 1 => some ⟨.signed, logBytes⟩
  | 2 => some ⟨.float, logBytes⟩
  | _ => none

/-- The initial of the numeral system and the number of bits. -/
def name (kind : NumberKind) : String :=
  (match kind.numeral with | .unsigned => "U" | .signed => "I" | .float => "F") ++ toString kind.bits

/-- Floating-point numbers of one or two bytes are named by kinds but cannot be read. -/
def isReadable (kind : NumberKind) : Bool := kind.numeral ≠ .float || 4 ≤ kind.bytes

/-- The number that the bytes of this kind spell. -/
def number (kind : NumberKind) (bytes : Bytes) : Binary64 :=
  match kind.numeral with
  | .unsigned => .ofNat bytes.littleEndian
  | .signed => .ofInt ((bytes.littleEndian : Int).bmod (1 <<< kind.bits))
  | .float =>
    if kind.bytes = 4 then .ofBinary32 (UInt32.ofNat bytes.littleEndian)
    else ⟨UInt64.ofNat bytes.littleEndian⟩

/-- The integer that the bytes of this kind spell, for the kinds whose integers all fit 32 bits. -/
def int? (kind : NumberKind) (bytes : Bytes) : Option Int32 :=
  match kind.numeral with
  | .unsigned => if kind.bits < 32 then some (Int32.ofNat bytes.littleEndian) else none
  | .signed =>
    if kind.bits ≤ 32 then some (Int32.ofInt ((bytes.littleEndian : Int).bmod (1 <<< kind.bits)))
    else none
  | .float => none

end NumberKind

inductive NumberFormatError where
  | unsupportedKind (code : Nat)
  | shiftTooLarge (kind : NumberKind) (shift : Nat)
  | outOfRange (number : Nat)
  deriving DecidableEq

namespace NumberFormatError

/-- The four low bits in binary. -/
def nibble (code : Nat) : String :=
  String.ofList ([8, 4, 2, 1].map fun weight => if code / weight % 2 = 1 then '1' else '0')

def message : NumberFormatError → String
  | .unsupportedKind code => "unsupported number kind: 0b" ++ nibble code
  | .shiftTooLarge kind shift => "shift " ++ toString shift ++ " too large for " ++ kind.name
  | .outOfRange number => "number format out of range: " ++ toString number

end NumberFormatError

/-- A readable kind with a shift of at most its width that fits the format byte. -/
structure NumberFormat where
  kind : NumberKind
  shift : Nat
  kind_readable : kind.isReadable = true
  shift_le_bits : shift ≤ kind.bits
  shift_lt_sixteen : shift < 16
  deriving DecidableEq

namespace NumberFormat

/-- Refuses an unreadable kind before it looks at the shift. -/
def new (kind : NumberKind) (shift : Nat) : Except NumberFormatError NumberFormat :=
  if readable : kind.isReadable = true then
    if fits : shift ≤ kind.bits ∧ shift < 16 then .ok ⟨kind, shift, readable, fits.1, fits.2⟩
    else .error (.shiftTooLarge kind shift)
  else .error (.unsupportedKind kind.code)

theorem eq_of_new {kind : NumberKind} {shift : Nat} {format : NumberFormat}
    (made : new kind shift = .ok format) : format.kind = kind ∧ format.shift = shift := by
  simp only [new] at made
  split at made
  · split at made
    · cases made
      exact ⟨rfl, rfl⟩
    · cases made
  · cases made

def ofByte (byte : UInt8) : Except NumberFormatError NumberFormat :=
  match NumberKind.ofCode? (byte.toNat % 16) with
  | some kind => new kind (byte.toNat / 16)
  | none => .error (.unsupportedKind (byte.toNat % 16))

def ofNat (number : Nat) : Except NumberFormatError NumberFormat :=
  if number < 256 then ofByte (UInt8.ofNat number) else .error (.outOfRange number)

def toByte (format : NumberFormat) : UInt8 := UInt8.ofNat (format.kind.code + 16 * format.shift)

/-- The value of the bytes that the format addresses. Without a shift the small integer kinds give
integers; all else is a double, divided by two to the shift. -/
def decode (format : NumberFormat) (bytes : Bytes) : Value :=
  if format.shift = 0 then
    match format.kind.int? bytes with
    | some number => .int number
    | none => .ofBinary64 (format.kind.number bytes)
  else
    .ofBinary64 ((format.kind.number bytes).mul (.twoPow (-Int32.ofNat format.shift)))

/-- Reads the number at an offset. A number that does not lie inside the data is `nan`. -/
def read (format : NumberFormat) (data : Bytes) (offset : Nat) : Value :=
  if offset + format.kind.bytes ≤ data.length then
    format.decode ((data.drop offset).take format.kind.bytes)
  else .nan

end NumberFormat
end NodeScript
