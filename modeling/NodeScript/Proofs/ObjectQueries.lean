import NodeScript.Assembler
import NodeScript.Proofs.OperandSequence
import NodeScript.Proofs.WordOperators

/-!
# What scripts can ask about a value

Two opcodes tell a script the type and the length of any value, whether or not there is an object behind
its handle. What they say agrees with which evaluations accept the value, so that a script that asks
first is not refused for the kind of the value. Lengths and sizes are handed out as integers of 32 bits,
and they are right only below 2³¹.
-/
namespace NodeScript

/-! ## Types -/

namespace ObjectType

theorem ofCode?_code (type : ObjectType) : ofCode? type.code = some type := by
  cases type <;> rfl

theorem code_lt (type : ObjectType) : type.code < 9 := by
  cases type <;> decide

theorem toInt_ofNat_code (type : ObjectType) : (Int32.ofNat type.code).toInt = type.code := by
  have small := type.code_lt
  exact Int32.toInt_ofNat_of_lt (by omega)

/-- Types are told apart by the integers that stand for them. -/
theorem ofNat_code_inj {type other : ObjectType} :
    Int32.ofNat type.code = Int32.ofNat other.code ↔ type = other := by
  refine ⟨fun same => ?_, fun same => congrArg (fun type => Int32.ofNat type.code) same⟩
  have codes : type.code = other.code := by
    have cast := congrArg Int32.toInt same
    rwa [toInt_ofNat_code, toInt_ofNat_code, Int.ofNat_inj] at cast
  exact Option.some.inj ((ofCode?_code type).symm.trans (codes ▸ ofCode?_code other))

end ObjectType

namespace Value

/-- The values of each type. The handle of a heap object has the type that the heap reports, and that
of an object which is no more is undefined. -/
inductive IsOfType (heap : Heap) : Value → ObjectType → Prop where
  | double (number : Binary64) : IsOfType heap (.double number) .number
  | int (number : Int32) : IsOfType heap (.int number) .number
  | nan : IsOfType heap .nan .number
  | bool (truth : Bool) : IsOfType heap (.bool truth) .bool
  | null : IsOfType heap .null .null
  | undefined : IsOfType heap .undefined .undefined
  | packetBuffer : IsOfType heap .packetBuffer .buffer
  | imageBuffer (index : UInt32) : IsOfType heap (.handle .imageBuffer index) .buffer
  | role (index : UInt32) : IsOfType heap (.handle .role index) .role
  | fiber (index : UInt32) : IsOfType heap (.handle .fiber index) .fiber
  | map {index : UInt32} (live : heap.object? index = some .map) :
      IsOfType heap (.handle .gcObject index) .map
  | array {index : UInt32} (live : heap.object? index = some .array) :
      IsOfType heap (.handle .gcObject index) .array
  | stale {index : UInt32} (gone : heap.object? index = none) :
      IsOfType heap (.handle .gcObject index) .undefined

section
variable {heap : Heap} {v : Value}

theorem isOfType_typeOf (heap : Heap) (v : Value) : v.IsOfType heap (v.typeOf heap.type?) := by
  cases v with
  | double number => exact .double number
  | int number => exact .int number
  | bool truth => exact .bool truth
  | null => exact .null
  | undefined => exact .undefined
  | nan => exact .nan
  | packetBuffer => exact .packetBuffer
  | handle kind index =>
    cases kind with
    | fiber => exact .fiber index
    | role => exact .role index
    | imageBuffer => exact .imageBuffer index
    | gcObject =>
      simp only [typeOf, Heap.type?]
      cases object : heap.object? index with
      | none => exact .stale object
      | some kind =>
        cases kind with
        | map => exact .map object
        | array => exact .array object

theorem IsOfType.typeOf_eq {type : ObjectType} (ofType : v.IsOfType heap type) :
    v.typeOf heap.type? = type := by
  cases ofType with
  | map object | array object | stale object => rw [typeOf, Heap.type?, object]; rfl
  | _ => rfl

theorem typeOf_eq_iff {type : ObjectType} : v.typeOf heap.type? = type ↔ v.IsOfType heap type :=
  ⟨fun same => same ▸ isOfType_typeOf heap v, IsOfType.typeOf_eq⟩

theorem isOfType_buffer_iff : v.IsOfType heap .buffer ↔
    v = .packetBuffer ∨ ∃ index, v = .handle .imageBuffer index := by
  constructor
  · intro ofType
    cases ofType with
    | packetBuffer => exact .inl rfl
    | imageBuffer index => exact .inr ⟨index, rfl⟩
  · rintro (rfl | ⟨index, rfl⟩)
    · exact .packetBuffer
    · exact .imageBuffer index

theorem isOfType_role_iff : v.IsOfType heap .role ↔ ∃ index, v = .handle .role index := by
  constructor
  · intro ofType
    cases ofType with
    | role index => exact ⟨index, rfl⟩
  · rintro ⟨index, rfl⟩
    exact .role index

theorem isOfType_array_iff : v.IsOfType heap .array ↔
    ∃ index, v = .handle .gcObject index ∧ heap.object? index = some .array := by
  constructor
  · intro ofType
    cases ofType with
    | array live => exact ⟨_, rfl, live⟩
  · rintro ⟨index, rfl, live⟩
    exact .array live

/-- Maps and arrays are behind handles of heap objects. -/
theorem IsOfType.exists_gcObject (ofType : v.IsOfType heap .map ∨ v.IsOfType heap .array) :
    ∃ index, v = .handle .gcObject index := by
  obtain ofType | ofType := ofType <;> cases ofType <;> exact ⟨_, rfl⟩

/-- A handle of the wanted kind is not refused for its kind, whatever its index. -/
theorem not_misses_expected_iff {kind : HandleKind} {size : Nat} {expected outOfRange : Fault}
    (differ : expected ≠ outOfRange) :
    ¬v.Misses kind size expected outOfRange expected ↔ ∃ index, v = .handle kind index := by
  simp [Misses, differ]

end

end Value

/-! ## Bytes and lengths -/

section
variable {world : World} {v : Value}

theorem World.bytes?_eq_some_iff {bytes : Bytes} :
    world.bytes? v = some bytes ↔ world.IsBuffer v bytes := by
  refine ⟨fun found => ?_, World.IsBuffer.bytes?_eq⟩
  cases v with
  | packetBuffer => exact .inl ⟨rfl, (Option.some.inj found).symm⟩
  | handle kind index =>
    cases kind with
    | imageBuffer => exact .inr ⟨index, rfl, found⟩
    | fiber | role | gcObject => cases found
  | double | int | bool | null | undefined | nan => cases found

/-- The values with bytes behind them are those that are accepted as buffers. -/
theorem World.bytes?_isSome_iff : (world.bytes? v).isSome ↔ world.image.bufferOf v = .ok v := by
  constructor
  · intro found
    obtain ⟨bytes, behind⟩ := Option.isSome_iff_exists.1 found
    exact (World.bytes?_eq_some_iff.1 behind).bufferOf_eq
  · exact World.bytes?_isSome_of_bufferOf

namespace Handler

theorem arrayLength?_eq_some_iff {count : Nat} : arrayLength? world v = some count ↔
    ∃ index, v = .handle .gcObject index ∧ world.heap.object? index = some .array ∧
      world.heap.arrayLength? index = some count := by
  simp only [arrayLength?, Option.bind_eq_bind, Option.bind_eq_some_iff,
    Value.handleIndex?_eq_some_iff, Option.ite_none_right_eq_some]

theorem lengthOf_buffer {bytes : Bytes} (buffer : world.IsBuffer v bytes) :
    lengthOf world v = .int (Int32.ofNat bytes.length) := by
  rw [lengthOf, buffer.bytes?_eq]

theorem lengthOf_array {index : UInt32} {count : Nat}
    (live : world.heap.object? index = some .array)
    (counted : world.heap.arrayLength? index = some count) :
    lengthOf world (.handle .gcObject index) = .int (Int32.ofNat count) := by
  have length := arrayLength?_eq_some_iff.2 ⟨index, rfl, live, counted⟩
  rw [lengthOf, show world.bytes? (.handle .gcObject index) = none from rfl, length]
  rfl

theorem lengthOf_isInt (world : World) (v : Value) : ∃ n, lengthOf world v = .int n := by
  rw [lengthOf]
  split <;> exact ⟨_, rfl⟩

/-- Only what has bytes or elements has a length other than zero. -/
theorem lengthOf_ne_zero (nonzero : lengthOf world v ≠ .int 0) :
    (∃ bytes, world.bytes? v = some bytes ∧ bytes ≠ []) ∨
      ∃ count, arrayLength? world v = some count := by
  rw [lengthOf] at nonzero
  cases behind : world.bytes? v with
  | some bytes =>
    rw [behind] at nonzero
    exact .inl ⟨bytes, rfl, by rintro rfl; exact nonzero rfl⟩
  | none =>
    rw [behind] at nonzero
    cases elements : arrayLength? world v with
    | some count => exact .inr ⟨count, rfl⟩
    | none =>
      rw [elements] at nonzero
      exact absurd rfl nonzero

end Handler
end

namespace Engine

variable {engine : Engine} {frame : Frame} {v : Value}

/-! ## Opcodes that answer every operand -/

/-- The opcode at the frame's position has an integer for every value of its operand. It fails only with
the fault of the operand, and it leaves behind what the operand leaves, the most recent fault with it. -/
structure AnswersEveryOperand (engine : Engine) (frame : Frame) : Prop where
  answer : ∀ {v after},
    engine.entered.evalValue { frame with pc := frame.pc + 1 } = (.ok v, after) →
      ∃ n, engine.evalValue frame = left (.ok (.int n), after)
  fault : ∀ {fault after},
    engine.entered.evalValue { frame with pc := frame.pc + 1 } = (.error fault, after) →
      engine.evalValue frame = left (.error fault, after)

/-- An opcode that computes something from the value of its operand. -/
theorem evalValue_map {opcode : Opcode} {f : Value → Value}
    (code : (engine.functionCode frame)[frame.pc]? = some opcode.toByte)
    (room : engine.depth < engine.settings.maxDepth)
    (computes : opcode.handler engine.toWorld frame = .value >>= fun v => .done (f v)) :
    engine.evalValue frame =
      left ((engine.entered.evalValue { frame with pc := frame.pc + 1 }).1.map f,
        (engine.entered.evalValue { frame with pc := frame.pc + 1 }).2) := by
  rw [evalValue_opcode code room, computes, perform_bind_done]
  rfl

theorem answersEveryOperand_of_map {opcode : Opcode} {f : Value → Value}
    (code : (engine.functionCode frame)[frame.pc]? = some opcode.toByte)
    (room : engine.depth < engine.settings.maxDepth)
    (computes : opcode.handler engine.toWorld frame = .value >>= fun v => .done (f v))
    (integer : ∀ v, ∃ n, f v = .int n) : engine.AnswersEveryOperand frame := by
  have computed := evalValue_map code room computes
  constructor
  · intro v after operand
    obtain ⟨n, answer⟩ := integer v
    rw [operand, Except.map, answer] at computed
    exact ⟨n, computed⟩
  · intro fault after operand
    rwa [operand, Except.map] at computed

theorem answersEveryOperand_typeOf
    (code : (engine.functionCode frame)[frame.pc]? = some Opcode.typeOf.toByte)
    (room : engine.depth < engine.settings.maxDepth) : engine.AnswersEveryOperand frame :=
  answersEveryOperand_of_map code room rfl fun _ => ⟨_, rfl⟩

theorem answersEveryOperand_length
    (code : (engine.functionCode frame)[frame.pc]? = some Opcode.length.toByte)
    (room : engine.depth < engine.settings.maxDepth) : engine.AnswersEveryOperand frame :=
  answersEveryOperand_of_map code room rfl (Handler.lengthOf_isInt engine.toWorld)

/-! ## Types and lengths of operands -/

/-- The evaluation comes to the integer that stands for the type. -/
def AnswersType (engine : Engine) (frame : Frame) (type : ObjectType) : Prop :=
  (engine.evalValue frame).1 = .ok (.int (Int32.ofNat type.code))

theorem AppliesTo.answersType_iff (applies : engine.AppliesTo frame .typeOf v) {type : ObjectType} :
    engine.AnswersType frame type ↔ v.IsOfType engine.heap type := by
  have answer : (engine.evalValue frame).1 =
      .ok (.int (Int32.ofNat (v.typeOf engine.heap.type?).code)) :=
    applies.evalValue_fst_eq rfl rfl
  rw [AnswersType, answer, Except.ok.injEq, Value.int.injEq, ObjectType.ofNat_code_inj,
    Value.typeOf_eq_iff]

theorem AppliesTo.length (applies : engine.AppliesTo frame .length v) :
    (engine.evalValue frame).1 = .ok (Handler.lengthOf engine.toWorld v) :=
  applies.evalValue_fst_eq rfl rfl

/-- A value is refused as a buffer for its kind just where its type is another. -/
theorem evalBuffer_expected_iff {after : Frame × Engine}
    (operand : engine.evalValue frame = (.ok v, after)) :
    (engine.evalBuffer frame).1 ≠ .error .expectedBuffer ↔ v.IsOfType engine.heap .buffer := by
  rw [Ne, evalBuffer_checks.refusal_iff operand, Classical.not_and_iff_not_or_not, Classical.not_not,
    Value.not_misses_expected_iff (by rintro ⟨⟩), Value.isOfType_buffer_iff]

theorem evalRoleIndex_expected_iff {after : Frame × Engine}
    (operand : engine.evalValue frame = (.ok v, after)) :
    (engine.evalRoleIndex frame).1 ≠ .error .expectedRole ↔ v.IsOfType engine.heap .role := by
  rw [Ne, evalRoleIndex_checks.refusal_iff operand, Value.not_misses_expected_iff (by rintro ⟨⟩),
    Value.isOfType_role_iff]

theorem bytes?_isSome_iff_evalBuffer {after : Frame × Engine}
    (operand : engine.evalValue frame = (.ok v, after)) :
    (engine.bytes? v).isSome ↔ ∃ w, (engine.evalBuffer frame).1 = .ok w := by
  rw [World.bytes?_isSome_iff, Image.bufferOf_eq_ok_iff]
  simp only [evalBuffer_checks.answer_iff operand, true_and, exists_eq_left]

/-- A length other than zero is that of a buffer with bytes or of a live array. -/
theorem AppliesTo.length_ne_zero (applies : engine.AppliesTo frame .length v)
    (nonzero : (engine.evalValue frame).1 ≠ .ok (.int 0)) :
    (v.IsOfType engine.heap .buffer ∧ ∃ bytes, engine.bytes? v = some bytes ∧ bytes ≠ []) ∨
      (v.IsOfType engine.heap .array ∧ ∃ index, v = .handle .gcObject index ∧
        engine.heap.object? index = some .array) := by
  rw [applies.length, Ne, Except.ok.injEq] at nonzero
  obtain ⟨bytes, behind, some_byte⟩ | ⟨count, counted⟩ := Handler.lengthOf_ne_zero nonzero
  · refine .inl ⟨Value.isOfType_buffer_iff.2 ?_, bytes, behind, some_byte⟩
    obtain ⟨packet, -⟩ | ⟨index, handle, -⟩ := World.bytes?_eq_some_iff.1 behind
    · exact .inl packet
    · exact .inr ⟨index, handle⟩
  · obtain ⟨index, handle, live, -⟩ := Handler.arrayLength?_eq_some_iff.1 counted
    exact .inr ⟨Value.isOfType_array_iff.2 ⟨index, handle, live⟩, index, handle, live⟩

/-- What scripts are told about a value agrees with what can be done with it. For an expression of any
value, the evaluations that want a buffer or a role refuse it for its kind just where its type is
another; there are bytes behind the value just where it is accepted as a buffer; only buffers with bytes
and live arrays have a length other than zero; and what is a map or an array is accepted as an object.
Neither question has a fault of its own, whatever it is asked about. -/
theorem types_lengths_and_buffers_agree {engine : Engine} {v : Value} {plain typed measured : Frame}
    (operand : (engine.evalValue plain).1 = .ok v) (asksType : engine.AppliesTo typed .typeOf v)
    (asksLength : engine.AppliesTo measured .length v) :
    ((engine.evalBuffer plain).1 ≠ .error .expectedBuffer ↔ engine.AnswersType typed .buffer) ∧
    ((engine.evalRoleIndex plain).1 ≠ .error .expectedRole ↔ engine.AnswersType typed .role) ∧
    ((engine.bytes? v).isSome ↔ ∃ w, (engine.evalBuffer plain).1 = .ok w) ∧
    ((engine.evalValue measured).1 ≠ .ok (.int 0) →
      (engine.AnswersType typed .buffer ∧ ∃ bytes, engine.bytes? v = some bytes ∧ bytes ≠ []) ∨
      (engine.AnswersType typed .array ∧ ∃ index, v = .handle .gcObject index ∧
        engine.heap.object? index = some .array)) ∧
    (engine.AnswersType typed .map ∨ engine.AnswersType typed .array →
      ∃ index, (engine.evalObjectIndex plain).1 = .ok index) ∧
    (∀ (opcode : Opcode) (frame : Frame), opcode = .typeOf ∨ opcode = .length →
      (engine.functionCode frame)[frame.pc]? = some opcode.toByte →
        engine.depth < engine.settings.maxDepth → engine.AnswersEveryOperand frame) := by
  have evaluated : engine.evalValue plain = (.ok v, (engine.evalValue plain).2) :=
    Prod.ext operand rfl
  simp only [asksType.answersType_iff]
  refine ⟨evalBuffer_expected_iff evaluated, evalRoleIndex_expected_iff evaluated,
    bytes?_isSome_iff_evalBuffer evaluated, asksLength.length_ne_zero, fun container => ?_, ?_⟩
  · obtain ⟨index, handle⟩ := Value.IsOfType.exists_gcObject container
    exact ⟨index, (evalObjectIndex_checks.answer_iff evaluated index).2 handle⟩
  · rintro opcode frame (rfl | rfl) code room
    · exact answersEveryOperand_typeOf code room
    · exact answersEveryOperand_length code room

/-- A stale handle of a byte string has the type of a buffer, and no bytes. A live array has a length,
and it is accepted as an object. -/
theorem types_lengths_and_buffers_agree_stale :
    let operand := Assembler.opcode .loadGlobal ++ [0]
    let image := { Image.empty with
      numGlobals := 1
      functions := #[⟨"plain", 0, 0, operand⟩,
        ⟨"typed", 0, 0, Assembler.opcode .typeOf ++ operand⟩,
        ⟨"measured", 0, 0, Assembler.opcode .length ++ operand⟩] }
    let arrays : Heap := ⟨fun _ => some .array, fun _ => some 5⟩
    let engine (v : Value) := (((start image .standard 0).setHeap arrays).setGlobal 0 v).2
    let frame (function : UInt32) : Frame := ⟨function, 0, #[], #[], 0⟩
    let stale := engine (.handle .imageBuffer 7)
    let live := engine (.handle .gcObject 7)
    ((stale.evalBuffer (frame 0)).1 ≠ .error .expectedBuffer ∧
      ¬∃ w, (stale.evalBuffer (frame 0)).1 = .ok w) ∧
    (live.AnswersType (frame 1) .array ∧ ∃ index, (live.evalObjectIndex (frame 0)).1 = .ok index) := by
  intro operand image arrays engine frame stale live
  have complete (opcode : Opcode) : ExpressionAt (Assembler.opcode opcode ++ operand) 1 3 1 :=
    ⟨Nat.le_refl 3, .one_opcode rfl ⟨0, [], rfl, rfl⟩ (.none [])⟩
  have shallow : 0 + 1 < Settings.standard.maxDepth := by decide
  have ofStale := @types_lengths_and_buffers_agree stale (.handle .imageBuffer 7) (frame 0) (frame 1)
    (frame 2) rfl ⟨rfl, rfl, 3, 1, complete .typeOf, shallow⟩
    ⟨rfl, rfl, 3, 1, complete .length, shallow⟩
  have ofLive := @types_lengths_and_buffers_agree live (.handle .gcObject 7) (frame 0) (frame 1)
    (frame 2) rfl ⟨rfl, rfl, 3, 1, complete .typeOf, shallow⟩
    ⟨rfl, rfl, 3, 1, complete .length, shallow⟩
  obtain ⟨kind, -, bytes, -⟩ := ofStale
  obtain ⟨-, -, -, -, object, -⟩ := ofLive
  have array : live.AnswersType (frame 1) .array := rfl
  refine ⟨⟨kind.2 rfl, fun accepted => ?_⟩, array, object (.inr array)⟩
  cases bytes.2 accepted

/-! ## Sizes as integers -/

/-- The result is a size as an integer of 32 bits, which is what the size leaves modulo 2³². As a number
it is the size just where that is below 2³¹. -/
structure ReportsSize (result : Except Fault Value) (size : Nat) : Prop where
  wraps : ∃ n, result = .ok (.int n) ∧ WrapsTo size n
  right_iff : (∃ v, result = .ok v ∧ v.toBinary64.IsInteger size) ↔ size < 0x80000000

theorem wrapsTo_ofNat (size : Nat) : WrapsTo size (Int32.ofNat size) :=
  wrapsTo_of_toInt_eq Int32.toInt_ofNat'

theorem reportsSize_of_eq {result : Except Fault Value} {size : Nat}
    (answer : result = .ok (.int (Int32.ofNat size))) : ReportsSize result size := by
  have wraps := wrapsTo_ofNat size
  have number := Value.isInteger_toBinary64 (Int32.ofNat size)
  refine ⟨⟨_, answer, wraps⟩, ?_⟩
  have fits : FitsInt32 size ↔ size < 0x80000000 := by
    rw [FitsInt32]
    omega
  rw [← fits, ← wraps.toInt_eq_iff]
  constructor
  · rintro ⟨v, told, right⟩
    obtain rfl : v = .int (Int32.ofNat size) := Except.ok.inj (told.symm.trans answer)
    exact number.unique right
  · intro same
    exact ⟨_, answer, same ▸ number⟩

theorem AppliesTo.reportsSize_buffer {bytes : Bytes} (applies : engine.AppliesTo frame .length v)
    (buffer : engine.IsBuffer v bytes) : ReportsSize (engine.evalValue frame).1 bytes.length :=
  reportsSize_of_eq (applies.length.trans (congrArg Except.ok (Handler.lengthOf_buffer buffer)))

theorem AppliesTo.reportsSize_array {index : UInt32} {count : Nat}
    (applies : engine.AppliesTo frame .length (.handle .gcObject index))
    (live : engine.heap.object? index = some .array)
    (counted : engine.heap.arrayLength? index = some count) :
    ReportsSize (engine.evalValue frame).1 count :=
  reportsSize_of_eq (applies.length.trans (congrArg Except.ok (Handler.lengthOf_array live counted)))

theorem reportsSize_packet
    (code : (engine.functionCode frame)[frame.pc]? = some Opcode.packetSize.toByte)
    (room : engine.depth < engine.settings.maxDepth) :
    ReportsSize (engine.evalValue frame).1 engine.packet.serviceSize.toNat := by
  have answer := @evalValue_fst_of_settled engine frame .packetSize
    (.ok (.int engine.packet.serviceSize.toInt32)) code room rfl
  have same : Int32.ofNat engine.packet.serviceSize.toNat = engine.packet.serviceSize.toInt32 :=
    congrArg UInt32.toInt32 UInt32.ofNat_toNat
  exact reportsSize_of_eq (same ▸ answer)

/-- The length of a buffer, the number of elements of an array and the size that a packet declares are
all cut down to 32 bits. They are right below 2³¹ and wrong from there on, without a fault. -/
theorem sizes_reported_modulo (engine : Engine) (frame : Frame) :
    (∀ v bytes, engine.AppliesTo frame .length v → engine.IsBuffer v bytes →
      ReportsSize (engine.evalValue frame).1 bytes.length) ∧
    (∀ index count, engine.AppliesTo frame .length (.handle .gcObject index) →
      engine.heap.object? index = some .array → engine.heap.arrayLength? index = some count →
        ReportsSize (engine.evalValue frame).1 count) ∧
    ((engine.functionCode frame)[frame.pc]? = some Opcode.packetSize.toByte →
      engine.depth < engine.settings.maxDepth →
        ReportsSize (engine.evalValue frame).1 engine.packet.serviceSize.toNat) :=
  ⟨fun _ _ applies => applies.reportsSize_buffer, fun _ _ applies => applies.reportsSize_array,
    reportsSize_packet⟩

/-- The sizes of a short array and of a short packet. -/
theorem sizes_reported_modulo_short :
    let measured := Assembler.opcode .length ++ Assembler.opcode .loadGlobal ++ [0]
    let image := { Image.empty with
      numGlobals := 1
      functions := #[⟨"measured", 0, 0, measured⟩, ⟨"sized", 0, 0, Assembler.opcode .packetSize⟩] }
    let engine := ((((start image .standard 0).setHeap
      ⟨fun _ => some .array, fun _ => some 7⟩).setPacket ⟨0, 4, 0, []⟩).setGlobal 0
        (.handle .gcObject 0)).2
    let frame (function : UInt32) : Frame := ⟨function, 0, #[], #[], 0⟩
    (∃ v, (engine.evalValue (frame 0)).1 = .ok v ∧ v.toBinary64.IsInteger (7 : Nat)) ∧
      ∃ v, (engine.evalValue (frame 1)).1 = .ok v ∧ v.toBinary64.IsInteger (4 : Nat) := by
  intro measured image engine frame
  have complete : ExpressionAt measured 1 3 1 :=
    ⟨Nat.le_refl 3, .one_opcode rfl ⟨0, [], rfl, rfl⟩ (.none [])⟩
  have shallow : 0 + 1 < Settings.standard.maxDepth := by decide
  have array := (sizes_reported_modulo engine (frame 0)).2.1 0 7
    ⟨rfl, rfl, 3, 1, complete, shallow⟩ rfl rfl
  have packet := (sizes_reported_modulo engine (frame 1)).2.2 rfl (by decide)
  exact ⟨array.right_iff.2 (by decide), packet.right_iff.2 (by decide)⟩

/-- An array of 2³² elements is said to have none, one of 2³¹ elements to have a negative number of
them, and a packet that declares 2³² - 1 bytes to declare minus one. -/
theorem sizes_reported_wrong :
    let measured := Assembler.opcode .length ++ Assembler.opcode .loadGlobal ++ [0]
    let image := { Image.empty with
      numGlobals := 1
      functions := #[⟨"measured", 0, 0, measured⟩, ⟨"sized", 0, 0, Assembler.opcode .packetSize⟩] }
    let engine (count : Nat) := ((((start image .standard 0).setHeap
      ⟨fun _ => some .array, fun _ => some count⟩).setPacket ⟨0, 0xFFFFFFFF, 0, []⟩).setGlobal 0
        (.handle .gcObject 0)).2
    let frame (function : UInt32) : Frame := ⟨function, 0, #[], #[], 0⟩
    (∀ count, (engine count).AppliesTo (frame 0) .length (.handle .gcObject 0)) ∧
    (((engine 0x100000000).evalValue (frame 0)).1 = .ok (.int 0) ∧
      ¬(Value.int 0).toBinary64.IsInteger (0x100000000 : Nat)) ∧
    (((engine 0x80000000).evalValue (frame 0)).1 = .ok (.int (-0x80000000)) ∧
      ¬(Value.int (-0x80000000)).toBinary64.IsInteger (0x80000000 : Nat)) ∧
    (((engine 0).evalValue (frame 1)).1 = .ok (.int (-1)) ∧
      ¬(Value.int (-1)).toBinary64.IsInteger (0xFFFFFFFF : Nat)) := by
  intro measured image engine frame
  have complete : ExpressionAt measured 1 3 1 :=
    ⟨Nat.le_refl 3, .one_opcode rfl ⟨0, [], rfl, rfl⟩ (.none [])⟩
  have shallow : 0 + 1 < Settings.standard.maxDepth := by decide
  have applies (count : Nat) : (engine count).AppliesTo (frame 0) .length (.handle .gcObject 0) :=
    ⟨rfl, rfl, 3, 1, complete, shallow⟩
  have wrong {n : Int32} {size : Nat} (differ : n.toInt ≠ size) :
      ¬(Value.int n).toBinary64.IsInteger size :=
    fun right => differ ((Value.isInteger_toBinary64 n).unique right)
  have told (count : Nat) : ((engine count).evalValue (frame 0)).1 = .ok (.int (Int32.ofNat count)) :=
    (applies count).length.trans (congrArg Except.ok (Handler.lengthOf_array rfl rfl))
  have none : Int32.ofNat 0x100000000 = 0 := by decide
  have negative : Int32.ofNat 0x80000000 = -0x80000000 := by decide
  exact ⟨applies, ⟨none ▸ told _, wrong (by decide)⟩, ⟨negative ▸ told _, wrong (by decide)⟩,
    ⟨rfl, wrong (by decide)⟩⟩

end Engine
end NodeScript
