import NodeScript.Handler

/-!
# The operands that opcodes ask for

The shape of a procedure says what it asks for before it is done: an immediate operand first if it is
to have one, and then so many operands. A fault may come early, and is never one of those that reading
code raises. The procedure of every opcode has the shape that the opcode declares.
-/
namespace NodeScript

/-- The faults of code that cannot be read, which no procedure raises by itself. -/
def Fault.isReading : Fault → Bool
  | .tooDeep | .invalidOpcode | .codeOverrun => true
  | _ => false

namespace Procedure

/-- Whether an immediate operand is still to be asked for, and how many operands after it. -/
inductive HasShape {α : Type} : Procedure α → Bool → Nat → Prop where
  | done (result : α) : HasShape (.done result) false 0
  | fail {fault : Fault} (immediate : Bool) (count : Nat) (raised : fault.isReading = false) :
      HasShape (.fail fault) immediate count
  | immediate {next : Int32 → Procedure α} {count : Nat} (rest : ∀ n, HasShape (next n) false count) :
      HasShape (.immediate next) true count
  | operand {next : Value → Procedure α} {count : Nat} (rest : ∀ v, HasShape (next v) false count) :
      HasShape (.operand next) false (count + 1)
  | draw {sample : Generator → Value × Generator} {next : Value → Procedure α} {count : Nat}
      (rest : ∀ v, HasShape (next v) false count) : HasShape (.draw sample next) false count

namespace HasShape

variable {α β : Type} {f : α → Procedure β} {immediate : Bool} {count first : Nat}

theorem bind {procedure : Procedure α} (shape : HasShape procedure immediate first)
    (rest : ∀ a, HasShape (f a) false count) :
    HasShape (procedure >>= f) immediate (first + count) := by
  induction shape with
  | done result => simpa using rest result
  | fail immediate first raised => exact .fail immediate _ raised
  | immediate _ ih => exact .immediate ih
  | operand _ ih => rw [Nat.add_right_comm]; exact .operand ih
  | draw _ ih => exact .draw ih

/-- A procedure that asks for nothing in front of one that may. -/
theorem after {procedure : Procedure α} (shape : HasShape procedure false 0)
    (rest : ∀ a, HasShape (f a) false count) : HasShape (procedure >>= f) false count := by
  simpa using shape.bind rest

theorem nextImmediate_bind {f : Int32 → Procedure β} (rest : ∀ n, HasShape (f n) false count) :
    HasShape (nextImmediate >>= f) true count := .immediate rest

theorem value_bind {f : Value → Procedure β} (rest : ∀ v, HasShape (f v) false count) :
    HasShape (value >>= f) false (count + 1) := .operand rest

theorem pair_bind {f : Value × Value → Procedure β} (rest : ∀ vs, HasShape (f vs) false count) :
    HasShape (pair >>= f) false (count + 2) :=
  .operand fun left => .operand fun right => rest (left, right)

theorem int32_bind {f : Int32 → Procedure β} (rest : ∀ n, HasShape (f n) false count) :
    HasShape (int32 >>= f) false (count + 1) := .operand fun v => rest v.toInt32

theorem uint32_bind {f : UInt32 → Procedure β} (rest : ∀ n, HasShape (f n) false count) :
    HasShape (uint32 >>= f) false (count + 1) := .operand fun v => rest v.toInt32.toUInt32

theorem binary64_bind {f : Binary64 → Procedure β} (rest : ∀ x, HasShape (f x) false count) :
    HasShape (binary64 >>= f) false (count + 1) := .operand fun v => rest v.toBinary64

theorem require_shape {fault : Fault} (raised : fault.isReading = false) (a? : Option α) :
    HasShape (require fault a?) false 0 := by
  cases a? with
  | none => exact .fail _ _ raised
  | some a => exact .done a

variable (world : World)

theorem checkString_shape (index : UInt32) : HasShape (checkString world index) false 0 := by
  rw [checkString]
  split
  · exact .done index
  · exact .fail _ _ rfl

theorem checkRole_shape (index : UInt32) : HasShape (checkRole world index) false 0 := by
  rw [checkRole]
  split
  · exact .done index
  · exact .fail _ _ rfl

theorem buffer_bind {f : Value → Procedure β} (rest : ∀ v, HasShape (f v) false count) :
    HasShape (buffer world >>= f) false (count + 1) := by
  refine .operand fun v => ?_
  cases v with
  | packetBuffer => exact rest _
  | handle kind index =>
    cases kind with
    | imageBuffer => exact ((checkString_shape world index).after fun _ => .done _).after rest
    | fiber | role | gcObject => exact .fail _ _ rfl
  | double | int | bool | null | undefined | nan => exact .fail _ _ rfl

theorem roleIndex_bind {f : UInt32 → Procedure β} (rest : ∀ n, HasShape (f n) false count) :
    HasShape (roleIndex world >>= f) false (count + 1) :=
  .operand fun _ => ((require_shape rfl _).after (checkRole_shape world)).after rest

theorem objectIndex_bind {f : UInt32 → Procedure β} (rest : ∀ n, HasShape (f n) false count) :
    HasShape (objectIndex >>= f) false (count + 1) :=
  .operand fun v => (require_shape rfl (v.handleIndex? .gcObject)).after rest

end HasShape

open HasShape

variable (world : World)

theorem value_shape : value.HasShape false 1 := .operand .done

theorem pair_shape : pair.HasShape false 2 := .operand fun _ => .operand fun _ => .done _

theorem uint32_shape : uint32.HasShape false 1 := .operand fun _ => .done _

theorem int32_shape : int32.HasShape false 1 := .operand fun _ => .done _

theorem binary64_shape : binary64.HasShape false 1 := .operand fun _ => .done _

theorem buffer_shape : (buffer world).HasShape false 1 := by
  rw [← bind_pure (buffer world)]
  exact buffer_bind world .done

theorem bufferBytes_shape : (bufferBytes world).HasShape false 1 := buffer_bind world fun _ => .done _

theorem stringIndex_shape : (stringIndex world).HasShape false 1 :=
  .operand fun _ => (require_shape rfl _).after (checkString_shape world)

theorem roleIndex_shape : (roleIndex world).HasShape false 1 :=
  .operand fun _ => (require_shape rfl _).after (checkRole_shape world)

theorem objectIndex_shape : objectIndex.HasShape false 1 := .operand fun _ => require_shape rfl _

end Procedure

open Procedure Procedure.HasShape

namespace Handler

variable (world : World) (frame : Frame)

theorem loadParam_shape : (loadParam frame).HasShape true 0 := by
  refine nextImmediate_bind fun index => ?_
  split <;> exact .done _

theorem loadBuffer_shape : (loadBuffer world).HasShape false 3 := by
  refine buffer_bind world fun source => uint32_bind fun format => uint32_bind fun offset => ?_
  split
  · exact .done _
  · exact .fail _ _ rfl

theorem fiberHandle_shape : (fiberHandle world frame).HasShape false 1 := by
  refine int32_bind fun position => ?_
  split
  · exact .done _
  · split <;> exact .done _

theorem randomInt_shape : randomInt.HasShape false 1 := by
  refine int32_bind fun bound => ?_
  split
  · exact .done _
  · exact .draw .done

end Handler

/-- Every opcode asks for the operands that its entry in the tables of shapes declares. -/
theorem Opcode.handler_shape (world : World) (frame : Frame) (opcode : Opcode) :
    (opcode.handler world frame).HasShape opcode.hasImmediate opcode.arity := by
  cases opcode with
  | invalid => exact .fail _ _ rfl
  | loadLocal => exact nextImmediate_bind fun _ => (require_shape rfl _).after fun _ => .done _
  | loadParam => exact Handler.loadParam_shape frame
  | loadGlobal => exact nextImmediate_bind fun _ => require_shape rfl _
  | loadBuffer => exact Handler.loadBuffer_shape world
  | literal => exact nextImmediate_bind fun _ => .done _
  | literalDouble => exact nextImmediate_bind fun _ => require_shape rfl _
  | stringMatch => exact buffer_bind world fun _ => uint32_bind fun _ => .done _
  | roleIsConnected => exact roleIndex_bind world fun _ => .done _
  | fiberHandle => exact Handler.fiberHandle_shape world frame
  | staticRole => exact nextImmediate_bind fun _ => (checkRole_shape world _).after fun _ => .done _
  | staticBuffer => exact nextImmediate_bind fun _ => (checkString_shape world _).after fun _ => .done _
  | field => exact nextImmediate_bind fun _ => objectIndex_bind fun _ => .fail _ _ rfl
  | element => exact objectIndex_bind fun _ => value_bind fun _ => .fail _ _ rfl
  | keyCount => exact objectIndex_bind fun _ => .fail _ _ rfl
  | length | typeOf | unary => exact value_bind fun _ => .done _
  | random => exact binary64_bind fun _ => .draw .done
  | randomInt => exact Handler.randomInt_shape
  | binary => exact pair_bind fun _ => .done _
  | resultValue | now | packetSize | eventCode | registerGetCode | commandCode | reportCode
  | packetBuffer | literalNull | literalTrue | literalFalse | literalNaN => exact .done _

end NodeScript
