import NodeScript.Proofs.OperandSequence
import NodeScript.Proofs.PacketPayload

/-!
# Matching a terminated string

Whether the packet holds a string with a zero byte behind it at an offset is asked of the stored data,
within the declared size. The answer is the one that the payload gives: the string and its terminator
stand at the offset, and nothing of them lies beyond the payload's end, whatever the offset is.
-/
namespace NodeScript

namespace Packet

/-- At the offset of the payload stand the bytes and a zero byte behind them. -/
def HoldsAt (packet : Packet) (offset : Nat) (bytes : Bytes) : Prop :=
  offset + bytes.length + 1 ≤ packet.payload.length ∧
    (packet.payload.drop offset).take (bytes.length + 1) = bytes ++ [0]

instance (packet : Packet) (offset : Nat) (bytes : Bytes) : Decidable (packet.HoldsAt offset bytes) :=
  inferInstanceAs (Decidable (_ ∧ _))

variable {packet : Packet} {offset : Nat} {bytes : Bytes}

theorem holdsAt_iff : packet.HoldsAt offset bytes ↔ bytes ++ [0] <+: packet.payload.drop offset := by
  have length : (bytes ++ [0]).length = bytes.length + 1 := List.length_append
  constructor
  · rintro ⟨-, found⟩
    exact found ▸ List.take_prefix _ _
  · intro found
    have fits := found.length_le
    rw [length, List.length_drop] at fits
    refine ⟨by omega, ?_⟩
    rw [← length, ← List.prefix_iff_eq_take.1 found]

theorem matchesTerminated_eq_decide :
    packet.matchesTerminated offset bytes = decide (packet.HoldsAt offset bytes) := by
  rw [Bool.eq_iff_iff, matchesTerminated_iff, decide_eq_true_eq, holdsAt_iff]

/-- There is no room for a terminator behind the whole payload. -/
theorem not_holdsAt_payload (packet : Packet) (offset : Nat) :
    ¬packet.HoldsAt offset packet.payload := by
  rintro ⟨inside, -⟩
  omega

end Packet

namespace Engine

variable {engine : Engine} {frame : Frame}

/-- A buffer and an offset that come to something are all that the opcode's procedure needs. -/
theorem perform_stringMatch {v w : Value} {bytes : Bytes} {after after' : Frame × Engine}
    (source : engine.evalBuffer frame = (.ok v, after)) (buffer : engine.IsBuffer v bytes)
    (offset : after.2.evalValue after.1 = (.ok w, after')) :
    engine.perform frame (Handler.stringMatch engine.toWorld) =
      (.ok (.bool (decide (engine.packet.HoldsAt w.toInt32.toUInt32.toNat bytes))), after') := by
  rw [Handler.stringMatch, perform_bind_ok source, perform_bind_ok (perform_uint32_ok offset),
    buffer.bytes?_eq, Option.getD_some, Packet.matchesTerminated_eq_decide]
  exact perform_done _ _ _

/-- What is evaluated as a buffer is one. -/
theorem isBuffer_of_evalBuffer {v : Value} {after : Frame × Engine}
    (source : engine.evalBuffer frame = (.ok v, after)) : ∃ bytes, engine.IsBuffer v bytes := by
  obtain ⟨u, accepted⟩ := evalBuffer_bufferOf source
  obtain ⟨rfl, -⟩ := Image.bufferOf_eq_ok_iff.1 accepted
  exact World.exists_isBuffer accepted

/-- A match is one in the payload, for every packet, offset and string. So what `stringMatch` comes to,
with a buffer and an offset that come to something, is whether the payload holds the buffer's bytes
and a zero byte at the offset. It never holds itself with a zero byte behind. -/
theorem stringMatch_exact :
    (∀ (packet : Packet) (offset : Nat) (bytes : Bytes),
      packet.matchesTerminated offset bytes = true ↔ packet.HoldsAt offset bytes) ∧
    ∀ (engine : Engine) (frame : Frame),
      (engine.functionCode frame)[frame.pc]? = some Opcode.stringMatch.toByte →
      engine.depth < engine.settings.maxDepth →
      ∀ (v w : Value) (after after' : Frame × Engine),
        engine.entered.evalBuffer { frame with pc := frame.pc + 1 } = (.ok v, after) →
        after.2.evalValue after.1 = (.ok w, after') →
        (∃ bytes, engine.IsBuffer v bytes ∧ engine.evalValue frame =
          left (.ok (.bool (decide (engine.packet.HoldsAt w.toInt32.toUInt32.toNat bytes))), after')) ∧
        (v = .packetBuffer → (engine.evalValue frame).1 = .ok (.bool false)) := by
  refine ⟨fun packet offset bytes => ?_, ?_⟩
  · rw [Packet.matchesTerminated_eq_decide, decide_eq_true_eq]
  · intro engine frame code room v w after after' source offset
    have matched {bytes : Bytes} (buffer : engine.IsBuffer v bytes) :=
      (evalValue_opcode code room).trans (congrArg left (perform_stringMatch source buffer offset))
    obtain ⟨bytes, buffer⟩ := isBuffer_of_evalBuffer source
    refine ⟨⟨bytes, buffer, matched buffer⟩, ?_⟩
    rintro rfl
    rw [matched (.inl ⟨rfl, rfl⟩)]
    exact congrArg (fun found => Except.ok (Value.bool found))
      (decide_eq_false (engine.packet.not_holdsAt_payload _))

/-- The packet holds the string up to the last byte that it declares, and not the one stored behind. -/
theorem stringMatch_exact_last_byte :
    let packet : Packet := ⟨0, 2, 0, [0x61, 0x00, 0x61, 0x00]⟩
    let engine := (start { Image.empty with
      strings := #[[0x61]]
      functions := #[⟨"f", 0, 0, Assembler.opcode .stringMatch ++
        Assembler.withImmediate .staticBuffer 0 ++ Assembler.integer 0⟩] } .standard 0).setPacket packet
    packet.matchesTerminated 0 [0x61] = true ∧ packet.matchesTerminated 2 [0x61] ≠ true ∧
      (engine.evalValue ⟨0, 0, #[], #[], 0⟩).1 = .ok (.bool true) := by
  intro packet engine
  obtain ⟨found_iff, evaluated⟩ := stringMatch_exact
  have source : engine.entered.evalBuffer ⟨0, 1, #[], #[], 0⟩ =
      (.ok (.handle .imageBuffer 0), ⟨0, 3, #[], #[], 0⟩, engine.entered) := rfl
  have offset : engine.entered.evalValue ⟨0, 3, #[], #[], 0⟩ =
      (.ok (.int 0), ⟨0, 4, #[], #[], 0⟩, engine.entered) := rfl
  obtain ⟨⟨bytes, buffer, answer⟩, -⟩ :=
    evaluated engine ⟨0, 0, #[], #[], 0⟩ rfl (by decide) _ _ _ _ source offset
  obtain rfl : [0x61] = bytes := Option.some.inj buffer.bytes?_eq
  refine ⟨(found_iff packet 0 [0x61]).2 (by decide), mt (found_iff packet 2 [0x61]).1 (by decide), ?_⟩
  rw [answer]
  rfl

end Engine
end NodeScript
