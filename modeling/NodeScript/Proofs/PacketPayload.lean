import NodeScript.Assembler
import NodeScript.Proofs.HostOperation

/-!
# What scripts see of the packet

A packet may store more bytes than it declares. Buffers are read through the payload, and the search for
a terminated string is one in the payload, so evaluation on two packets that differ only in what they
store behind it is the same.
-/
namespace NodeScript

namespace Packet

/-- The packets declare the same and have the same payload, whatever they store behind it. -/
structure SamePayload (packet other : Packet) : Prop where
  flags : other.flags = packet.flags
  serviceSize : other.serviceSize = packet.serviceSize
  command : other.command = packet.command
  payload : other.payload = packet.payload

variable {packet other : Packet} {offset : Nat} {bytes : Bytes}

theorem getElem?_payload (packet : Packet) (index : Nat) : packet.payload[index]? =
    if index < packet.serviceSize.toNat then packet.data[index]? else none :=
  List.getElem?_take

/-- Within the declared size the payload is the stored data. -/
theorem take_drop_payload {count : Nat} (inside : offset + count ≤ packet.serviceSize.toNat) :
    (packet.payload.drop offset).take count = (packet.data.drop offset).take count := by
  have fits : count ≤ packet.serviceSize.toNat - offset := by omega
  rw [payload, List.drop_take, List.take_take, Nat.min_eq_left fits]

theorem terminated_prefix_iff {data : Bytes} :
    bytes ++ [0] <+: data ↔ data[bytes.length]? = some 0 ∧ data.take bytes.length = bytes := by
  constructor
  · rintro ⟨rest, rfl⟩
    simp
  · rintro ⟨terminator, start⟩
    obtain ⟨inside, zero⟩ := List.getElem?_eq_some_iff.1 terminator
    refine ⟨data.drop (bytes.length + 1), ?_⟩
    have behind : data.drop bytes.length = 0 :: data.drop (bytes.length + 1) := by
      rw [List.drop_eq_getElem_cons inside, zero]
    calc bytes ++ [0] ++ data.drop (bytes.length + 1)
        = bytes ++ data.drop bytes.length := by rw [behind, List.append_assoc]; rfl
      _ = data.take bytes.length ++ data.drop bytes.length := by rw [start]
      _ = data := List.take_append_drop _ _

/-- The bytes are found if they stand at the offset of the payload with a zero byte behind them. -/
theorem matchesTerminated_iff : packet.matchesTerminated offset bytes = true ↔
    bytes ++ [0] <+: packet.payload.drop offset := by
  rw [terminated_prefix_iff, List.getElem?_drop, getElem?_payload]
  simp only [matchesTerminated, Bool.and_eq_true, decide_eq_true_eq, beq_iff_eq]
  by_cases inside : offset + bytes.length < packet.serviceSize.toNat
  · rw [if_pos inside, take_drop_payload (Nat.le_of_lt inside)]
    simp only [inside, true_and]
  · rw [if_neg inside]
    simp [inside]

theorem SamePayload.matchesTerminated_eq (same : packet.SamePayload other) :
    other.matchesTerminated = packet.matchesTerminated := by
  funext offset bytes
  rw [Bool.eq_iff_iff, matchesTerminated_iff, matchesTerminated_iff, same.payload]

theorem SamePayload.isCommand_eq (same : packet.SamePayload other) :
    other.isCommand = packet.isCommand := by
  rw [isCommand, isCommand, same.flags]

end Packet

section
variable (world : World) (frame : Frame) {packet : Packet}
  (same : world.packet.SamePayload packet)
include same

theorem World.bytes?_withPacket : ({ world with packet } : World).bytes? = world.bytes? := by
  funext v
  cases v with
  | packetBuffer => exact congrArg some same.payload
  | handle kind index => cases kind <;> rfl
  | double | int | bool | null | undefined | nan => rfl

/-- No opcode looks at the packet but for what it declares and the payload. -/
theorem Opcode.handler_withPacket (opcode : Opcode) :
    opcode.handler { world with packet } frame = opcode.handler world frame := by
  have bytes := world.bytes?_withPacket same
  cases opcode with
  | loadBuffer =>
    simp only [handler, Handler.loadBuffer, bytes]
    rfl
  | stringMatch =>
    simp only [handler, Handler.stringMatch, bytes, same.matchesTerminated_eq]
    rfl
  | length =>
    simp only [handler, Handler.length, Handler.lengthOf, bytes]
    rfl
  | packetSize => simp only [handler, same.serviceSize]
  | eventCode =>
    simp only [handler, Packet.isEvent, Packet.isReport, Packet.eventCode, same.isCommand_eq,
      same.command]
  | registerGetCode =>
    simp only [handler, Packet.isReport, Packet.isRegisterGet, Packet.registerCode,
      same.isCommand_eq, same.command]
  | commandCode => simp only [handler, same.isCommand_eq, same.command]
  | reportCode => simp only [handler, Packet.isReport, same.isCommand_eq, same.command]
  | _ => rfl

theorem Procedure.bufferBytes_withPacket :
    bufferBytes { world with packet } = bufferBytes world := by
  rw [bufferBytes, bufferBytes, world.bytes?_withPacket same]
  rfl

end

namespace Engine

/-- The answer with another packet in the engine behind it. -/
def carrying {α : Type} (packet : Packet) (answer : Except Fault α × Frame × Engine) :
    Except Fault α × Frame × Engine :=
  (answer.1, answer.2.1, answer.2.2.setPacket packet)

variable {engine : Engine} {packet : Packet}

theorem perform_setPacket {α : Type} (same : engine.packet.SamePayload packet) (frame : Frame)
    (procedure : Procedure α) : (engine.setPacket packet).perform frame procedure =
      carrying packet (engine.perform frame procedure) := by
  have evaluated := congrFun (evaluate_congr (Opcode.handler_withPacket engine.toWorld frame same))
    (engine.settings.maxDepth - engine.depth)
  have action : procedure.run (evaluate (engine.setPacket packet).toWorld frame
      ((engine.setPacket packet).settings.maxDepth - (engine.setPacket packet).depth)) =
      procedure.run (evaluate engine.toWorld frame (engine.settings.maxDepth - engine.depth)) :=
    congrArg (fun evaluate => procedure.run evaluate) evaluated
  rw [perform, action]
  rfl

/-- Stored bytes behind the payload cannot be seen. With another packet that declares the same and has
the same payload, every evaluation, on any frame and code, comes to the same value or fault, leaves the
frame at the same position and the engine in the same state, its generator and its most recent fault
included, but for the packet. -/
theorem evaluation_payload_only : EveryEvaluation fun _ evaluation =>
    ∀ (engine : Engine) (frame : Frame) (packet : Packet), engine.packet.SamePayload packet →
      evaluation (engine.setPacket packet) frame = carrying packet (evaluation engine frame) where
  value _ frame _ same := perform_setPacket same frame _
  pair _ frame _ same := perform_setPacket same frame _
  uint32 _ frame _ same := perform_setPacket same frame _
  int32 _ frame _ same := perform_setPacket same frame _
  binary64 _ frame _ same := perform_setPacket same frame _
  buffer _ frame _ same := perform_setPacket same frame _
  bufferBytes engine frame packet same := by
    have bytes : Procedure.bufferBytes (engine.setPacket packet).toWorld =
        Procedure.bufferBytes engine.toWorld :=
      Procedure.bufferBytes_withPacket engine.toWorld same
    rw [evalBufferBytes, bytes]
    exact perform_setPacket same frame _
  stringIndex _ frame _ same := perform_setPacket same frame _
  roleIndex _ frame _ same := perform_setPacket same frame _
  objectIndex _ frame _ same := perform_setPacket same frame _

/-- A zero byte that is stored behind the declared size, where another packet stores something else,
terminates no string. -/
theorem evaluation_payload_only_stale_zero :
    let code := Assembler.opcode .stringMatch ++ Assembler.withImmediate .staticBuffer 0 ++ [0x90]
    let image := { Image.empty with
      strings := #[[0x61, 0x62]]
      functions := #[⟨"main", 0, 0, code⟩] }
    let stale : Packet := ⟨0, 2, 0, [0x61, 0x62, 0]⟩
    let other : Packet := ⟨0, 2, 0, [0x61, 0x62, 0x63, 0x64]⟩
    let engine := (start image .standard 0).setPacket stale
    stale.SamePayload other ∧ (engine.evalValue ⟨0, 0, #[], #[], 0⟩).1 = .ok (.bool false) ∧
      ((engine.setPacket other).evalValue ⟨0, 0, #[], #[], 0⟩).1 = .ok (.bool false) := by
  intro code image stale other engine
  have same : stale.SamePayload other := ⟨rfl, rfl, rfl, rfl⟩
  have first : (engine.evalValue ⟨0, 0, #[], #[], 0⟩).1 = .ok (.bool false) := rfl
  have evaluated := evaluation_payload_only.value engine ⟨0, 0, #[], #[], 0⟩ other same
  refine ⟨same, first, ?_⟩
  rw [evaluated]
  exact first

end Engine
end NodeScript
