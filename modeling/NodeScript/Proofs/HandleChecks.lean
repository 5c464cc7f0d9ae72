import NodeScript.Assembler
import NodeScript.Proofs.OperandEvaluation

/-!
# Checked handles

Values come to an evaluation from anywhere, and a handle among them may be of any kind and have any
index. An evaluation that wants a handle evaluates one expression, and it answers for exactly the
handles that are of the kind and lie within the table. Whatever else the value is, the fault says
whether its kind or its index is wrong.
-/
namespace NodeScript

theorem Value.handleIndex?_eq_some_iff {wanted : HandleKind} {v : Value} {index : UInt32} :
    v.handleIndex? wanted = some index ↔ v = .handle wanted index := by
  cases v with
  | handle kind other =>
    by_cases same : kind = wanted <;> simp [handleIndex?, same]
  | double | int | bool | null | undefined | nan | packetBuffer => simp [handleIndex?]

theorem Value.handleIndex?_eq_none_iff {wanted : HandleKind} {v : Value} :
    v.handleIndex? wanted = none ↔ ∀ index, v ≠ .handle wanted index := by
  simp [Option.eq_none_iff_forall_ne_some, handleIndex?_eq_some_iff]

/-- The value is the handle of an entry of a table with so many entries. -/
def Value.PointsInto (kind : HandleKind) (size : Nat) (v : Value) (index : UInt32) : Prop :=
  v = .handle kind index ∧ index.toNat < size

/-- The fault says why the value is not the handle of an entry: it is no handle of the kind, or there is
no entry at its index. -/
def Value.Misses (kind : HandleKind) (size : Nat) (expected outOfRange : Fault) (v : Value)
    (fault : Fault) : Prop :=
  fault = expected ∧ (∀ index, v ≠ .handle kind index) ∨
    fault = outOfRange ∧ ∃ index, v = .handle kind index ∧ size ≤ index.toNat

/-- The index of the entry that the value points at. -/
def Value.entryIndex (kind : HandleKind) (size : Nat) (expected outOfRange : Fault) (v : Value) :
    Except Fault UInt32 :=
  match v.handleIndex? kind with
  | none => .error expected
  | some index => if index.toNat < size then .ok index else .error outOfRange

section
variable {kind : HandleKind} {size : Nat} {expected outOfRange : Fault} {v : Value}

theorem Value.entryIndex_of_none (none : v.handleIndex? kind = none) :
    v.entryIndex kind size expected outOfRange = .error expected := by
  rw [entryIndex, none]

theorem Value.entryIndex_handle (index : UInt32) :
    (handle kind index).entryIndex kind size expected outOfRange =
      if index.toNat < size then .ok index else .error outOfRange := by
  simp [entryIndex, handleIndex?]

theorem Value.entryIndex_eq_ok_iff {index : UInt32} :
    v.entryIndex kind size expected outOfRange = .ok index ↔ v.PointsInto kind size index := by
  cases found : v.handleIndex? kind with
  | none => simp [entryIndex_of_none found, PointsInto, handleIndex?_eq_none_iff.1 found]
  | some other =>
    obtain rfl := handleIndex?_eq_some_iff.1 found
    rw [entryIndex_handle]
    by_cases inside : other.toNat < size
    · simp only [if_pos inside, PointsInto, Except.ok.injEq, handle.injEq, true_and]
      exact ⟨fun same => ⟨same, same ▸ inside⟩, fun points => points.1⟩
    · simp only [if_neg inside, PointsInto, reduceCtorEq, handle.injEq, true_and, false_iff]
      rintro ⟨rfl, within⟩
      exact inside within

theorem Value.entryIndex_eq_error_iff {fault : Fault} :
    v.entryIndex kind size expected outOfRange = .error fault ↔
      v.Misses kind size expected outOfRange fault := by
  cases found : v.handleIndex? kind with
  | none =>
    have other := handleIndex?_eq_none_iff.1 found
    simp [entryIndex_of_none found, Misses, other, eq_comm]
  | some index =>
    obtain rfl := handleIndex?_eq_some_iff.1 found
    rw [entryIndex_handle]
    by_cases inside : index.toNat < size
    · simp [Misses, inside]
    · simp [Misses, inside, Nat.le_of_not_lt inside, eq_comm]

end

/-- The buffer that the value is. -/
def Image.bufferOf (image : Image) (v : Value) : Except Fault Value :=
  if v = .packetBuffer then .ok v
  else (v.entryIndex .imageBuffer image.strings.size .expectedBuffer .stringOutOfRange).map fun _ => v

section
variable {image : Image} {v : Value}

theorem Image.bufferOf_packetBuffer : image.bufferOf .packetBuffer = .ok .packetBuffer := rfl

theorem Image.bufferOf_of_ne (other : v ≠ .packetBuffer) : image.bufferOf v =
    (v.entryIndex .imageBuffer image.strings.size .expectedBuffer .stringOutOfRange).map fun _ => v :=
  if_neg other

theorem Image.bufferOf_eq_ok_iff {w : Value} : image.bufferOf v = .ok w ↔
    w = v ∧ (v = .packetBuffer ∨ ∃ index, v.PointsInto .imageBuffer image.strings.size index) := by
  by_cases packet : v = .packetBuffer
  · subst packet
    simp [bufferOf_packetBuffer, eq_comm]
  · rw [bufferOf_of_ne packet]
    simp only [packet, false_or, ← @Value.entryIndex_eq_ok_iff .imageBuffer image.strings.size
      .expectedBuffer .stringOutOfRange]
    cases v.entryIndex .imageBuffer image.strings.size .expectedBuffer .stringOutOfRange <;>
      simp [Except.map, eq_comm]

theorem Image.bufferOf_eq_error_iff {fault : Fault} : image.bufferOf v = .error fault ↔
    v ≠ .packetBuffer ∧
      v.Misses .imageBuffer image.strings.size .expectedBuffer .stringOutOfRange fault := by
  by_cases packet : v = .packetBuffer
  · subst packet
    simp [bufferOf_packetBuffer]
  · rw [bufferOf_of_ne packet, ← Value.entryIndex_eq_error_iff]
    simp only [ne_eq, packet, not_false_eq_true, true_and]
    cases v.entryIndex .imageBuffer image.strings.size .expectedBuffer .stringOutOfRange <;>
      simp [Except.map]

/-- What is accepted as a buffer has bytes behind it. -/
theorem World.bytes?_isSome_of_bufferOf {world : World} {w : Value}
    (accepted : world.image.bufferOf v = .ok w) : (world.bytes? w).isSome := by
  obtain ⟨rfl, rfl | ⟨index, rfl, inside⟩⟩ := Image.bufferOf_eq_ok_iff.1 accepted
  · rfl
  · simpa [bytes?, Image.string?] using inside

end

namespace Procedure

variable (world : World)

/-- A handle is looked at for its kind first and then for its index. -/
theorem entryIndex_eq (kind : HandleKind) (size : Nat) (expected outOfRange : Fault) :
    (do
      let v ← value
      let index ← require expected (v.handleIndex? kind)
      if index.toNat < size then pure index else fail outOfRange) =
    .operand fun v => .ofResult (v.entryIndex kind size expected outOfRange) := by
  simp only [value, operand_bind, done_bind]
  congr 1
  funext v
  rw [Value.entryIndex]
  cases v.handleIndex? kind with
  | none => rfl
  | some index =>
    simp only [require, done_bind]
    split <;> rfl

theorem stringIndex_eq : stringIndex world = .operand fun v => .ofResult
    (v.entryIndex .imageBuffer world.image.strings.size .expectedString .stringOutOfRange) :=
  entryIndex_eq .imageBuffer world.image.strings.size .expectedString .stringOutOfRange

theorem roleIndex_eq : roleIndex world = .operand fun v => .ofResult
    (v.entryIndex .role world.image.roles.size .expectedRole .roleOutOfRange) :=
  entryIndex_eq .role world.image.roles.size .expectedRole .roleOutOfRange

theorem objectIndex_eq : objectIndex = .operand fun v => .ofResult
    ((v.handleIndex? .gcObject).elim (.error .expectedMap) .ok) := by
  simp only [objectIndex, value, operand_bind, done_bind]
  congr 1
  funext v
  cases v.handleIndex? .gcObject <;> rfl

theorem buffer_eq : buffer world = .operand fun v => .ofResult (world.image.bufferOf v) := by
  simp only [buffer, value, operand_bind, done_bind]
  congr 1
  funext v
  cases v with
  | handle kind index =>
    cases kind with
    | imageBuffer =>
      have other : Value.handle .imageBuffer index ≠ .packetBuffer := by rintro ⟨⟩
      simp only [Image.bufferOf_of_ne other, Value.entryIndex_handle, checkString]
      split <;> rfl
    | fiber | role | gcObject => rfl
  | double | int | bool | null | undefined | nan | packetBuffer => rfl

end Procedure

namespace Engine

variable {α : Type}

/-- The evaluation takes the value of one expression and answers for the values that are accepted, and
for them only. The fault of the expression goes through, a value that is not accepted is refused with a
fault, and nothing else happens than that the fault is recorded. -/
structure Checks (evaluation : Engine → Frame → Except Fault α × Frame × Engine)
    (accepts : Image → Value → α → Prop) (refuses : Image → Value → Fault → Prop) : Prop where
  fault : ∀ {engine frame fault after}, engine.evalValue frame = (.error fault, after) →
    evaluation engine frame = (.error fault, after)
  answer_iff : ∀ {engine frame v after}, engine.evalValue frame = (.ok v, after) →
    ∀ a, (evaluation engine frame).1 = .ok a ↔ accepts engine.image v a
  refusal_iff : ∀ {engine frame v after}, engine.evalValue frame = (.ok v, after) →
    ∀ fault, (evaluation engine frame).1 = .error fault ↔ refuses engine.image v fault
  after_answer : ∀ {engine frame v after}, engine.evalValue frame = (.ok v, after) →
    ∀ a, (evaluation engine frame).1 = .ok a → (evaluation engine frame).2 = after
  after_refusal : ∀ {engine frame v after}, engine.evalValue frame = (.ok v, after) →
    ∀ fault, (evaluation engine frame).1 = .error fault →
      (evaluation engine frame).2 = (after.1, after.2.fail fault)

/-- What comes of checking the value that an evaluation had. -/
def checked (check : Value → Except Fault α) :
    Except Fault Value × Frame × Engine → Except Fault α × Frame × Engine
  | (.error fault, after) => (.error fault, after)
  | (.ok v, after) =>
    match check v with
    | .ok a => (.ok a, after)
    | .error fault => (.error fault, after.1, after.2.fail fault)

theorem perform_check (engine : Engine) (frame : Frame) (check : Value → Except Fault α) :
    engine.perform frame (.operand fun v => .ofResult (check v)) =
      checked check (engine.evalValue frame) := by
  rw [evalValue_eq_move]
  simp only [perform, move, Procedure.run]
  cases evaluate engine.toWorld frame (engine.settings.maxDepth - engine.depth)
      (engine.cursor frame) with
  | mk result stop =>
    cases result with
    | error fault => rfl
    | ok v =>
      simp only [checked]
      cases check v <;> rfl

/-- An evaluation that is the check of a value, with what the check accepts and refuses. -/
theorem checks_perform (procedure : World → Procedure α) (check : Image → Value → Except Fault α)
    {accepts : Image → Value → α → Prop} {refuses : Image → Value → Fault → Prop}
    (runs : ∀ world, procedure world = .operand fun v => .ofResult (check world.image v))
    (ok_iff : ∀ image v a, check image v = .ok a ↔ accepts image v a)
    (error_iff : ∀ image v fault, check image v = .error fault ↔ refuses image v fault) :
    Checks (fun engine frame => engine.perform frame (procedure engine.toWorld)) accepts refuses := by
  have outcome {engine : Engine} {frame : Frame} {result : Except Fault Value}
      {after : Frame × Engine} (evaluated : engine.evalValue frame = (result, after)) :
      engine.perform frame (procedure engine.toWorld) =
        checked (check engine.image) (result, after) := by
    rw [runs, perform_check, evaluated]
  refine ⟨outcome, ?_, ?_, ?_, ?_⟩ <;> intro engine frame v after evaluated <;>
    rw [outcome evaluated, checked]
  · intro a
    rw [← ok_iff]
    cases check engine.image v <;> simp
  · intro fault
    rw [← error_iff]
    cases check engine.image v <;> simp
  · intro a answered
    cases h : check engine.image v with
    | ok b => rfl
    | error fault => simp [h] at answered
  · intro fault refused
    cases h : check engine.image v with
    | ok b => simp [h] at refused
    | error other =>
      simp only [h, Except.error.injEq] at refused ⊢
      rw [refused]

theorem evalStringIndex_checks : Checks evalStringIndex
    (fun image v index => v.PointsInto .imageBuffer image.strings.size index)
    (fun image v fault =>
      v.Misses .imageBuffer image.strings.size .expectedString .stringOutOfRange fault) :=
  checks_perform _ _ Procedure.stringIndex_eq (fun _ _ _ => Value.entryIndex_eq_ok_iff)
    fun _ _ _ => Value.entryIndex_eq_error_iff

theorem evalRoleIndex_checks : Checks evalRoleIndex
    (fun image v index => v.PointsInto .role image.roles.size index)
    (fun image v fault => v.Misses .role image.roles.size .expectedRole .roleOutOfRange fault) :=
  checks_perform _ _ Procedure.roleIndex_eq (fun _ _ _ => Value.entryIndex_eq_ok_iff)
    fun _ _ _ => Value.entryIndex_eq_error_iff

/-- Of a heap object only the kind of its handle is looked at. -/
theorem evalObjectIndex_checks : Checks evalObjectIndex
    (fun _ v index => v = .handle .gcObject index)
    (fun _ v fault => fault = .expectedMap ∧ ∀ index, v ≠ .handle .gcObject index) := by
  refine checks_perform (fun _ => .objectIndex)
    (fun _ v => (v.handleIndex? .gcObject).elim (.error .expectedMap) .ok)
    (fun _ => Procedure.objectIndex_eq) ?_ ?_
  · intro _ v index
    rw [← Value.handleIndex?_eq_some_iff]
    cases v.handleIndex? .gcObject <;> simp
  · intro _ v fault
    rw [← Value.handleIndex?_eq_none_iff]
    cases v.handleIndex? .gcObject <;> simp [eq_comm]

theorem evalBuffer_checks : Checks evalBuffer
    (fun image v w =>
      w = v ∧ (v = .packetBuffer ∨ ∃ index, v.PointsInto .imageBuffer image.strings.size index))
    (fun image v fault => v ≠ .packetBuffer ∧
      v.Misses .imageBuffer image.strings.size .expectedBuffer .stringOutOfRange fault) :=
  checks_perform _ _ Procedure.buffer_eq (fun _ _ _ => Image.bufferOf_eq_ok_iff)
    fun _ _ _ => Image.bufferOf_eq_error_iff

/-- The bytes are looked up after the value was accepted as a buffer. -/
theorem evalBufferBytes_eq (engine : Engine) (frame : Frame) : engine.evalBufferBytes frame =
    ((engine.evalBuffer frame).1.map fun v => (engine.bytes? v).getD [],
      (engine.evalBuffer frame).2) :=
  engine.perform_bind_done frame (.buffer engine.toWorld) fun v => (engine.bytes? v).getD []

theorem evalBuffer_bufferOf {engine : Engine} {frame : Frame} {w : Value} {after : Frame × Engine}
    (accepted : engine.evalBuffer frame = (.ok w, after)) :
    ∃ v, engine.image.bufferOf v = .ok w := by
  rw [evalBuffer, Procedure.buffer_eq, perform_check] at accepted
  cases evaluated : engine.evalValue frame with
  | mk result stop =>
    rw [evaluated] at accepted
    cases result with
    | error fault => cases accepted
    | ok v =>
      refine ⟨v, ?_⟩
      cases check : engine.image.bufferOf v with
      | error fault => simp [checked, check] at accepted
      | ok u => simp_all [checked]

/-- What was accepted as a buffer has bytes, and these are handed out. -/
theorem evalBufferBytes_of_evalBuffer {engine : Engine} {frame : Frame} {v : Value}
    {after : Frame × Engine} (accepted : engine.evalBuffer frame = (.ok v, after)) :
    ∃ bytes, after.2.bytes? v = some bytes ∧ engine.evalBufferBytes frame = (.ok bytes, after) := by
  obtain ⟨u, taken⟩ := evalBuffer_bufferOf accepted
  obtain ⟨bytes, behind⟩ := Option.isSome_iff_exists.1 (World.bytes?_isSome_of_bufferOf taken)
  have world : after.2.toWorld = engine.toWorld :=
    congrArg (fun outcome => outcome.2.2.toWorld) accepted.symm
  refine ⟨bytes, world ▸ behind, ?_⟩
  rw [evalBufferBytes_eq, accepted]
  simp only [Except.map, behind, Option.getD_some]

/-- The evaluations that want a handle accept exactly the handles of the right kind within the table,
wherever the value comes from, and say of every other value whether its kind or its index is wrong. The
packet's payload counts as a buffer and not as a string of the image. What is accepted as a buffer has
bytes, and these are the bytes that are handed out. -/
theorem handles_checked :
    Checks evalBuffer
      (fun image v w =>
        w = v ∧ (v = .packetBuffer ∨ ∃ index, v.PointsInto .imageBuffer image.strings.size index))
      (fun image v fault => v ≠ .packetBuffer ∧
        v.Misses .imageBuffer image.strings.size .expectedBuffer .stringOutOfRange fault) ∧
    Checks evalStringIndex
      (fun image v index => v.PointsInto .imageBuffer image.strings.size index)
      (fun image v fault =>
        v.Misses .imageBuffer image.strings.size .expectedString .stringOutOfRange fault) ∧
    Checks evalRoleIndex
      (fun image v index => v.PointsInto .role image.roles.size index)
      (fun image v fault => v.Misses .role image.roles.size .expectedRole .roleOutOfRange fault) ∧
    Checks evalObjectIndex
      (fun _ v index => v = .handle .gcObject index)
      (fun _ v fault => fault = .expectedMap ∧ ∀ index, v ≠ .handle .gcObject index) ∧
    (∀ (engine : Engine) (frame : Frame) (v : Value) (after : Frame × Engine),
      engine.evalBuffer frame = (.ok v, after) → ∃ bytes, after.2.bytes? v = some bytes ∧
        engine.evalBufferBytes frame = (.ok bytes, after)) ∧
    (∀ (engine : Engine) (frame : Frame) (fault : Fault) (after : Frame × Engine),
      engine.evalBuffer frame = (.error fault, after) →
        engine.evalBufferBytes frame = (.error fault, after)) :=
  ⟨evalBuffer_checks, evalStringIndex_checks, evalRoleIndex_checks, evalObjectIndex_checks,
    fun _ _ _ _ => evalBufferBytes_of_evalBuffer,
    fun engine frame _ _ refused => by rw [evalBufferBytes_eq, refused]; rfl⟩

/-- A role's handle that was put into a global and is beyond the table is refused where it is used, and
the payload of the packet is a buffer but no string. -/
theorem handles_checked_stale_role :
    let image (code : Bytes) := { Image.empty with
      numGlobals := 1
      roles := #[⟨"btn", 1⟩]
      functions := #[⟨"f", 0, 0, code⟩] }
    let stale := ((start (image (Assembler.withImmediate .loadGlobal 0)) .standard 0).setGlobal 0
      (.handle .role 9)).2
    let packet := start (image (Assembler.opcode .packetBuffer)) .standard 0
    let frame : Frame := ⟨0, 0, #[], #[], 0⟩
    (stale.evalRoleIndex frame).1 = .error .roleOutOfRange ∧
      (packet.evalStringIndex frame).1 = .error .expectedString ∧
      (packet.evalBuffer frame).1 = .ok .packetBuffer ∧
      (packet.evalBufferBytes frame).1 = .ok [] := by
  intro image stale packet frame
  obtain ⟨buffer, string, role, -, bytes, -⟩ := handles_checked
  have loaded : stale.evalValue frame = (.ok (.handle .role 9), (stale.evalValue frame).2) := rfl
  have payload : packet.evalValue frame = (.ok .packetBuffer, (packet.evalValue frame).2) := rfl
  have accepted := (buffer.answer_iff payload .packetBuffer).2 ⟨rfl, .inl rfl⟩
  refine ⟨(role.refusal_iff loaded _).2 (.inr ⟨rfl, 9, rfl, by decide⟩),
    (string.refusal_iff payload _).2 (.inl ⟨rfl, fun _ => by rintro ⟨⟩⟩), accepted, ?_⟩
  obtain ⟨taken, behind, handed⟩ := bytes packet frame .packetBuffer _ (Prod.ext accepted rfl)
  obtain rfl : [] = taken := Option.some.inj behind
  rw [handed]

end Engine
end NodeScript
