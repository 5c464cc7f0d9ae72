import NodeScript.Assembler
import NodeScript.Proofs.NumberReading
import NodeScript.Proofs.OperandSequence

/-!
# Reading numbers out of buffers

The opcode that reads a number out of a buffer has three operands: the buffer, the format and the
offset. Any of them may fail, the first may be no buffer and the second no format, and which of these
comes first decides the fault. Where none applies there is a number, wherever the offset points.
-/
namespace NodeScript

namespace NumberKind

theorem ofCode?_code (kind : NumberKind) : ofCode? kind.code = some kind := by
  obtain ⟨numeral, logBytes⟩ := kind
  cases numeral <;> revert logBytes <;> decide

theorem code_of_ofCode? {code : Nat} {kind : NumberKind} (h : ofCode? code = some kind) :
    kind.code = code := by
  simp only [ofCode?] at h
  split at h
  all_goals cases h
  all_goals
    simp only [NumberKind.code, Fin.val_ofNat]
    omega

theorem code_lt_sixteen (kind : NumberKind) : kind.code < 16 := by
  obtain ⟨numeral, logBytes⟩ := kind
  cases numeral <;> revert logBytes <;> decide

/-- The kinds that can be read, by their codes. -/
theorem isReadable_iff (kind : NumberKind) :
    kind.isReadable = true ↔ kind.code < 8 ∨ kind.code = 10 ∨ kind.code = 11 := by
  obtain ⟨numeral, logBytes⟩ := kind
  cases numeral <;> revert logBytes <;> decide

theorem bytes_eq_of_code (kind : NumberKind) : kind.bytes = 1 <<< (kind.code % 4) := by
  obtain ⟨numeral, logBytes⟩ := kind
  cases numeral <;> revert logBytes <;> decide

theorem exists_code_eq {code : Nat} (small : code < 12) : ∃ kind : NumberKind, kind.code = code := by
  have named : (ofCode? code).isSome := by
    revert code
    decide
  obtain ⟨kind, found⟩ := Option.isSome_iff_exists.1 named
  exact ⟨kind, code_of_ofCode? found⟩

end NumberKind

namespace NumberFormat

/-- The number is the format's byte, with the kind in the low four bits and the shift in the others. -/
def IsCodedBy (format : NumberFormat) (number : Nat) : Prop :=
  number < 256 ∧ number % 16 = format.kind.code ∧ number / 16 = format.shift

/-- The number is a byte that codes a format: a kind of integers, or the floating-point numbers of four
or eight bytes, and a shift by no more bits than a number of the kind has. -/
def IsCode (number : Nat) : Prop :=
  number < 256 ∧ (number % 16 < 8 ∨ number % 16 = 10 ∨ number % 16 = 11) ∧
    number / 16 ≤ 8 * 1 <<< (number % 4)

variable {number : Nat} {format : NumberFormat}

theorem ofNat_eq_ok_iff : ofNat number = .ok format ↔ format.IsCodedBy number := by
  constructor
  · intro coded
    rw [ofNat] at coded
    split at coded
    case isFalse => cases coded
    case isTrue byte =>
      have value : (UInt8.ofNat number).toNat = number := UInt8.toNat_ofNat_of_lt' byte
      rw [ofByte, value] at coded
      split at coded
      · next kind found =>
        obtain ⟨rfl, shift⟩ := eq_of_new coded
        exact ⟨byte, (NumberKind.code_of_ofCode? found).symm, shift.symm⟩
      · cases coded
  · rintro ⟨byte, kind, shift⟩
    have value : (UInt8.ofNat number).toNat = number := UInt8.toNat_ofNat_of_lt' byte
    simp only [ofNat, if_pos byte, ofByte, value, kind, shift, NumberKind.ofCode?_code, new,
      format.kind_readable, format.shift_le_bits, format.shift_lt_sixteen, and_self, dite_true]

/-- A format's own byte codes it. -/
theorem isCodedBy_toByte (format : NumberFormat) : format.IsCodedBy format.toByte.toNat := by
  have code := format.kind.code_lt_sixteen
  have shift := format.shift_lt_sixteen
  have byte : format.toByte.toNat = format.kind.code + 16 * format.shift := by
    rw [toByte, UInt8.toNat_ofNat']
    omega
  rw [IsCodedBy, byte]
  omega

/-- The formats and the bytes that code formats are the same. -/
theorem ofByte_eq_ok_iff {byte : UInt8} : ofByte byte = .ok format ↔ byte = format.toByte := by
  have small := byte.toNat_lt
  have same : ofNat byte.toNat = ofByte byte := by
    rw [ofNat, if_pos small, UInt8.ofNat_toNat]
  rw [← same, ofNat_eq_ok_iff, ← UInt8.toNat_inj]
  obtain ⟨-, kind, shift⟩ := format.isCodedBy_toByte
  rw [IsCodedBy]
  omega

theorem exists_isCodedBy_iff : (∃ format : NumberFormat, format.IsCodedBy number) ↔ IsCode number := by
  constructor
  · rintro ⟨format, byte, kind, shift⟩
    have bits := format.shift_le_bits
    have readable := (NumberKind.isReadable_iff _).1 format.kind_readable
    have low : number % 4 = format.kind.code % 4 := by omega
    rw [NumberKind.bits, NumberKind.bytes_eq_of_code, ← low] at bits
    exact ⟨byte, kind ▸ readable, shift ▸ bits⟩
  · rintro ⟨byte, readable, bits⟩
    obtain ⟨kind, code⟩ := NumberKind.exists_code_eq (show number % 16 < 12 by omega)
    have low : number % 4 = kind.code % 4 := by omega
    rw [low, ← NumberKind.bytes_eq_of_code] at bits
    rw [← code] at readable
    exact ⟨⟨kind, number / 16, kind.isReadable_iff.2 readable, bits, by omega⟩, byte, code.symm, rfl⟩

theorem ofNat_eq_error (uncoded : ¬IsCode number) : ∃ error, ofNat number = .error error := by
  cases made : ofNat number with
  | error error => exact ⟨error, rfl⟩
  | ok format => exact absurd (exists_isCodedBy_iff.1 ⟨format, ofNat_eq_ok_iff.1 made⟩) uncoded

end NumberFormat

namespace Engine

open Handler

/-- What comes of the operands of `loadBuffer`, which are evaluated one after another. The first rule
that applies is the one: whether the first value is a buffer is looked at before anything else is
evaluated, and whether the second one is a format after everything is. -/
inductive ReadsBuffer (engine : Engine) (frame : Frame) :
    Except Fault Value × Frame × Engine → Prop where
  | bufferFault {fault : Fault} {after : Frame × Engine}
      (source : engine.evalValue frame = (.error fault, after)) :
      ReadsBuffer engine frame (.error fault, after)
  | noBuffer {v : Value} {after : Frame × Engine} {fault : Fault}
      (source : engine.evalValue frame = (.ok v, after)) (other : v ≠ .packetBuffer)
      (misses : v.Misses .imageBuffer engine.image.strings.size .expectedBuffer .stringOutOfRange
        fault) :
      ReadsBuffer engine frame (.error fault, after.1, after.2.fail fault)
  | formatFault {v : Value} {bytes : Bytes} {after : Frame × Engine} {fault : Fault}
      {after' : Frame × Engine} (source : engine.evalValue frame = (.ok v, after))
      (buffer : engine.IsBuffer v bytes)
      (format : after.2.evalValue after.1 = (.error fault, after')) :
      ReadsBuffer engine frame (.error fault, after')
  | offsetFault {v : Value} {bytes : Bytes} {after : Frame × Engine} {w : Value}
      {after' : Frame × Engine} {fault : Fault} {after'' : Frame × Engine}
      (source : engine.evalValue frame = (.ok v, after)) (buffer : engine.IsBuffer v bytes)
      (format : after.2.evalValue after.1 = (.ok w, after'))
      (offset : after'.2.evalValue after'.1 = (.error fault, after'')) :
      ReadsBuffer engine frame (.error fault, after'')
  | noFormat {v : Value} {bytes : Bytes} {after : Frame × Engine} {w : Value}
      {after' : Frame × Engine} {x : Value} {after'' : Frame × Engine}
      (source : engine.evalValue frame = (.ok v, after)) (buffer : engine.IsBuffer v bytes)
      (format : after.2.evalValue after.1 = (.ok w, after'))
      (offset : after'.2.evalValue after'.1 = (.ok x, after''))
      (uncoded : ¬NumberFormat.IsCode w.toInt32.toUInt32.toNat) :
      ReadsBuffer engine frame
        (.error .invalidNumberFormat, after''.1, after''.2.fail .invalidNumberFormat)
  | number {v : Value} {bytes : Bytes} {after : Frame × Engine} {w : Value}
      {after' : Frame × Engine} {x : Value} {after'' : Frame × Engine}
      (source : engine.evalValue frame = (.ok v, after)) (buffer : engine.IsBuffer v bytes)
      (format : after.2.evalValue after.1 = (.ok w, after'))
      (offset : after'.2.evalValue after'.1 = (.ok x, after''))
      {coded : NumberFormat} (isCoded : coded.IsCodedBy w.toInt32.toUInt32.toNat) :
      ReadsBuffer engine frame (.ok (coded.read bytes x.toInt32.toUInt32.toNat), after'')

variable {engine : Engine} {frame : Frame}

/-- Whatever the operands come to, one of the rules applies. -/
theorem exists_readsBuffer (engine : Engine) (frame : Frame) :
    ∃ outcome, ReadsBuffer engine frame outcome := by
  -- In the order of evaluation, each step ends the opcode or leads to the next.
  rcases source : engine.evalValue frame with ⟨fault | v, after⟩
  · exact ⟨_, .bufferFault source⟩
  cases accepted : engine.image.bufferOf v with
  | error fault =>
    obtain ⟨other, misses⟩ := Image.bufferOf_eq_error_iff.1 accepted
    exact ⟨_, .noBuffer source other misses⟩
  | ok u =>
    obtain ⟨bytes, buffer⟩ := World.exists_isBuffer accepted
    rcases format : after.2.evalValue after.1 with ⟨fault | w, after'⟩
    · exact ⟨_, .formatFault source buffer format⟩
    rcases offset : after'.2.evalValue after'.1 with ⟨fault | x, after''⟩
    · exact ⟨_, .offsetFault source buffer format offset⟩
    by_cases code : NumberFormat.IsCode w.toInt32.toUInt32.toNat
    · obtain ⟨coded, isCoded⟩ := NumberFormat.exists_isCodedBy_iff.2 code
      exact ⟨_, .number source buffer format offset isCoded⟩
    · exact ⟨_, .noFormat source buffer format offset code⟩

/-- Each of the rules says what the opcode's procedure does. -/
theorem ReadsBuffer.perform_eq {outcome : Except Fault Value × Frame × Engine}
    (reads : ReadsBuffer engine frame outcome) :
    engine.perform frame (loadBuffer engine.toWorld) = outcome := by
  cases reads with
  | bufferFault source => exact perform_bind_error (perform_buffer_error source) _
  | noBuffer source other misses =>
    have refused := Image.bufferOf_eq_error_iff.2 ⟨other, misses⟩
    exact perform_bind_error (perform_buffer_refused source refused) _
  | formatFault source buffer format =>
    rw [loadBuffer, perform_bind_ok (perform_buffer_ok source buffer)]
    exact perform_bind_error (perform_uint32_error format) _
  | offsetFault source buffer format offset =>
    rw [loadBuffer, perform_bind_ok (perform_buffer_ok source buffer),
      perform_bind_ok (perform_uint32_ok format)]
    exact perform_bind_error (perform_uint32_error offset) _
  | noFormat source buffer format offset uncoded =>
    obtain ⟨error, refused⟩ := NumberFormat.ofNat_eq_error uncoded
    rw [loadBuffer, perform_bind_ok (perform_buffer_ok source buffer),
      perform_bind_ok (perform_uint32_ok format), perform_bind_ok (perform_uint32_ok offset), refused]
    exact perform_fail _ _ _
  | number source buffer format offset isCoded =>
    rw [loadBuffer, perform_bind_ok (perform_buffer_ok source buffer),
      perform_bind_ok (perform_uint32_ok format), perform_bind_ok (perform_uint32_ok offset),
      NumberFormat.ofNat_eq_ok_iff.2 isCoded, buffer.bytes?_eq]
    exact perform_done _ _ _

theorem readsBuffer_iff {outcome : Except Fault Value × Frame × Engine} :
    ReadsBuffer engine frame outcome ↔
      outcome = engine.perform frame (loadBuffer engine.toWorld) := by
  constructor
  · exact fun reads => reads.perform_eq.symm
  · rintro rfl
    obtain ⟨outcome, reads⟩ := exists_readsBuffer engine frame
    exact reads.perform_eq ▸ reads

/-- What `loadBuffer` comes to. Of the rules exactly one applies to the operands behind the opcode, with
exactly one outcome, and that is the opcode's. The offset is never at fault: a number that does not
lie inside of the buffer is `nan`. -/
theorem evalValue_loadBuffer (engine : Engine) (frame : Frame)
    (code : (engine.functionCode frame)[frame.pc]? = some Opcode.loadBuffer.toByte)
    (room : engine.depth < engine.settings.maxDepth) :
    (∃ outcome,
      (∀ other, ReadsBuffer engine.entered { frame with pc := frame.pc + 1 } other ↔
        other = outcome) ∧ engine.evalValue frame = left outcome) ∧
    ∀ (format : NumberFormat) (bytes : Bytes) (offset : Nat),
      bytes.length < offset + format.kind.bytes → format.read bytes offset = .nan := by
  refine ⟨⟨_, fun other => readsBuffer_iff, evalValue_opcode code room⟩, ?_⟩
  intro format bytes offset outside
  exact NumberFormat.read_outside outside

/-- Two bytes of a string are read where all operands come to something, and past its end nothing is.
Nor is anything read past the declared size of a packet, although it stores one more byte there. -/
theorem evalValue_loadBuffer_two_bytes :
    let engine := start { Image.empty with
      strings := #[[0xFF, 0xFE, 0x01]]
      functions := #[⟨"f", 0, 0, Assembler.opcode .loadBuffer ++
        Assembler.withImmediate .staticBuffer 0 ++ Assembler.integer 5 ++ Assembler.integer 0⟩,
        ⟨"g", 0, 0, Assembler.opcode .loadBuffer ++ Assembler.opcode .packetBuffer ++
          Assembler.integer 5 ++ Assembler.integer 1⟩] }
      .standard 0
    let received := engine.setPacket ⟨0, 2, 0, [0xFF, 0xFE, 0x01]⟩
    let signed : NumberFormat := ⟨⟨.signed, 1⟩, 0, rfl, by decide, by decide⟩
    (engine.evalValue ⟨0, 0, #[], #[], 0⟩).1 = .ok (.int (-257)) ∧
      signed.read [0xFF, 0xFE, 0x01] 2 = .nan ∧
      (received.evalValue ⟨1, 0, #[], #[], 0⟩).1 = .ok .nan ∧
      signed.read [0xFF, 0xFE, 0x01] 1 = .int 510 := by
  intro engine received signed
  have source : engine.entered.evalValue ⟨0, 1, #[], #[], 0⟩ =
      (.ok (.handle .imageBuffer 0), ⟨0, 3, #[], #[], 0⟩, engine.entered) := rfl
  have format : engine.entered.evalValue ⟨0, 3, #[], #[], 0⟩ =
      (.ok (.int 5), ⟨0, 4, #[], #[], 0⟩, engine.entered) := rfl
  have offset : engine.entered.evalValue ⟨0, 4, #[], #[], 0⟩ =
      (.ok (.int 0), ⟨0, 5, #[], #[], 0⟩, engine.entered) := rfl
  have buffer : engine.entered.IsBuffer (.handle .imageBuffer 0) [0xFF, 0xFE, 0x01] :=
    .inr ⟨0, rfl, rfl⟩
  have source' : received.entered.evalValue ⟨1, 1, #[], #[], 0⟩ =
      (.ok .packetBuffer, ⟨1, 2, #[], #[], 0⟩, received.entered) := rfl
  have format' : received.entered.evalValue ⟨1, 2, #[], #[], 0⟩ =
      (.ok (.int 5), ⟨1, 3, #[], #[], 0⟩, received.entered) := rfl
  have offset' : received.entered.evalValue ⟨1, 3, #[], #[], 0⟩ =
      (.ok (.int 1), ⟨1, 4, #[], #[], 0⟩, received.entered) := rfl
  have declared : received.entered.IsBuffer .packetBuffer [0xFF, 0xFE] := .inl ⟨rfl, rfl⟩
  have coded : signed.IsCodedBy 5 := ⟨by decide, rfl, rfl⟩
  obtain ⟨⟨_, unique, evaluated⟩, outside⟩ :=
    evalValue_loadBuffer engine ⟨0, 0, #[], #[], 0⟩ rfl (by decide)
  obtain ⟨⟨_, unique', evaluated'⟩, -⟩ :=
    evalValue_loadBuffer received ⟨1, 0, #[], #[], 0⟩ rfl (by decide)
  have spelled : signed.read [0xFF, 0xFE, 0x01] 0 = .int (-257) := by decide
  refine ⟨?_, outside signed _ 2 (by decide), ?_, by decide⟩
  · rw [evaluated, ← (unique _).1 (.number source buffer format offset coded)]
    exact congrArg Except.ok spelled
  · rw [evaluated', ← (unique' _).1 (.number source' declared format' offset' coded)]
    exact congrArg Except.ok (outside signed _ 1 (by decide))

end Engine
end NodeScript
