import Mathlib.Data.List.Basic
import NodeScript.Proofs.ExpressionTree

/-!
# Opcodes on trees

The procedure of every opcode, given its immediate operand and its operands directly instead of code
to read them from, does what the tables of the tree semantics say.
-/
namespace NodeScript

namespace Procedure

variable {α β : Type}

/-- Runs a procedure on an immediate operand and operands that are given. A procedure that asks for
more than it is given fails like code that ends too early. -/
def answered : Procedure α → Option Int32 → List (Sampling Value) → Sampling α
  | done result, _, _ => .of (.ok result)
  | fail fault, _, _ => .of (.error fault)
  | immediate next, some n, operands => (next n).answered none operands
  | immediate _, none, _ => .of (.error .codeOverrun)
  | operand next, immediate?, first :: others =>
    first.andThen fun v => (next v).answered immediate? others
  | operand _, _, [] => .of (.error .codeOverrun)
  | draw sample next, immediate?, operands =>
    (Sampling.drawn sample).andThen fun v => (next v).answered immediate? operands

section
variable (immediate? : Option Int32) (first : Sampling Value) (others : List (Sampling Value))

theorem answered_require (fault : Fault) (v? : Option Value) (operands : List (Sampling Value)) :
    (require fault v?).answered immediate? operands = .of (entryOr fault v?) := by
  cases v? <;> rfl

theorem answered_draw_done (sample : Generator → Value × Generator)
    (operands : List (Sampling Value)) :
    (draw sample done).answered immediate? operands = .drawn sample := rfl

theorem answered_nextImmediate_bind (n : Int32) (f : Int32 → Procedure α)
    (operands : List (Sampling Value)) :
    (nextImmediate >>= f).answered (some n) operands = (f n).answered none operands := rfl

theorem answered_value_bind (f : Value → Procedure α) :
    (value >>= f).answered immediate? (first :: others) =
      first.andThen fun v => (f v).answered immediate? others := rfl

theorem answered_int32_bind (f : Int32 → Procedure α) :
    (int32 >>= f).answered immediate? (first :: others) =
      first.andThen fun v => (f v.toInt32).answered immediate? others := rfl

theorem answered_uint32_bind (f : UInt32 → Procedure α) :
    (uint32 >>= f).answered immediate? (first :: others) =
      first.andThen fun v => (f v.toInt32.toUInt32).answered immediate? others := rfl

theorem answered_binary64_bind (f : Binary64 → Procedure α) :
    (binary64 >>= f).answered immediate? (first :: others) =
      first.andThen fun v => (f v.toBinary64).answered immediate? others := rfl

variable (world : World)

theorem answered_buffer_bind (f : Value → Procedure α) :
    (buffer world >>= f).answered immediate? (first :: others) =
      (first.checked world.bufferFault?).andThen fun v => (f v).answered immediate? others := by
  rw [Sampling.checked, Sampling.andThen_andThen, buffer, bind_bind, answered_value_bind]
  refine congrArg first.andThen (funext fun v => ?_)
  cases v with
  | packetBuffer => rfl
  | handle kind index =>
    cases kind with
    | imageBuffer =>
      by_cases inside : index.toNat < world.image.strings.size
      · simp [checkString, World.bufferFault?, inside]
      · simp [checkString, World.bufferFault?, inside, answered]
    | fiber | role | gcObject => rfl
  | double | int | bool | null | undefined | nan => rfl

theorem answered_roleIndex_bind (f : UInt32 → Procedure α) :
    (roleIndex world >>= f).answered immediate? (first :: others) =
      (first.checked world.roleFault?).andThen fun v =>
        (f ((v.handleIndex? .role).getD 0)).answered immediate? others := by
  rw [Sampling.checked, Sampling.andThen_andThen, roleIndex, bind_bind, answered_value_bind]
  refine congrArg first.andThen (funext fun v => ?_)
  cases v with
  | handle kind index =>
    cases kind with
    | role =>
      by_cases inside : index.toNat < world.image.roles.size
      · simp [checkRole, World.roleFault?, Value.handleIndex?, require, inside]
      · simp [checkRole, World.roleFault?, Value.handleIndex?, require, inside, answered]
    | fiber | imageBuffer | gcObject => rfl
  | double | int | bool | null | undefined | nan | packetBuffer => rfl

theorem answered_objectIndex_bind (f : UInt32 → Procedure α) :
    (objectIndex >>= f).answered immediate? (first :: others) =
      (first.checked Value.objectFault?).andThen fun v =>
        (f ((v.handleIndex? .gcObject).getD 0)).answered immediate? others := by
  rw [Sampling.checked, Sampling.andThen_andThen]
  refine congrArg first.andThen (funext fun v => ?_)
  cases v with
  | handle kind index => cases kind <;> rfl
  | double | int | bool | null | undefined | nan | packetBuffer => rfl

end
end Procedure

namespace Opcode

open Procedure

variable {world : World} {frame : Frame} {opcode : Opcode} {immediate? : Option Int32}

theorem eval_nil : opcode.eval world frame immediate? [] = opcode.rule world frame immediate? [] :=
  rfl

theorem eval_one (first : Sampling Value) : opcode.eval world frame immediate? [first] =
    (first.checked (opcode.firstFault? world)).andThen fun v =>
      opcode.rule world frame immediate? [v] := by
  simp only [eval, evalOperands, Sampling.andThen_andThen, Sampling.of_ok_andThen]

theorem eval_one_unchecked (h : opcode.firstFault? world = fun _ => none) (first : Sampling Value) :
    opcode.eval world frame immediate? [first] =
      first.andThen fun v => opcode.rule world frame immediate? [v] := by
  rw [eval_one, h, Sampling.checked_none]

theorem eval_two (first second : Sampling Value) :
    opcode.eval world frame immediate? [first, second] =
      (first.checked (opcode.firstFault? world)).andThen fun v => second.andThen fun w =>
        opcode.rule world frame immediate? [v, w] := by
  simp only [eval, evalOperands, Sampling.andThen_andThen, Sampling.of_ok_andThen,
    Sampling.checked_none]

theorem eval_two_unchecked (h : opcode.firstFault? world = fun _ => none)
    (first second : Sampling Value) :
    opcode.eval world frame immediate? [first, second] =
      first.andThen fun v => second.andThen fun w => opcode.rule world frame immediate? [v, w] := by
  rw [eval_two, h, Sampling.checked_none]

theorem eval_three (first second third : Sampling Value) :
    opcode.eval world frame immediate? [first, second, third] =
      (first.checked (opcode.firstFault? world)).andThen fun v => second.andThen fun w =>
        third.andThen fun x => opcode.rule world frame immediate? [v, w, x] := by
  simp only [eval, evalOperands, Sampling.andThen_andThen, Sampling.of_ok_andThen,
    Sampling.checked_none]

section
variable (world : World) (frame : Frame) (immediate? : Option Int32)

theorem answered_loadLocal (n : Int32) :
    (Handler.loadLocal frame).answered (some n) [] = loadLocal.eval world frame (some n) [] := by
  rw [Handler.loadLocal, answered_nextImmediate_bind, eval_nil, rule, Rule.immediate]
  cases Handler.lookup? frame.locals n with
  | none | some => rfl

theorem answered_loadParam (n : Int32) :
    (Handler.loadParam frame).answered (some n) [] = loadParam.eval world frame (some n) [] := by
  rw [Handler.loadParam, answered_nextImmediate_bind, eval_nil, rule, Rule.immediate]
  cases Handler.lookup? frame.params n with
  | none | some => rfl

theorem answered_staticRole (n : Int32) :
    (Handler.staticRole world).answered (some n) [] = staticRole.eval world frame (some n) [] := by
  rw [Handler.staticRole, answered_nextImmediate_bind, eval_nil, rule, Rule.immediate, checkRole]
  split
  · rfl
  · rfl

theorem answered_staticBuffer (n : Int32) :
    (Handler.staticBuffer world).answered (some n) [] =
      staticBuffer.eval world frame (some n) [] := by
  rw [Handler.staticBuffer, answered_nextImmediate_bind, eval_nil, rule, Rule.immediate,
    checkString]
  split
  · rfl
  · rfl

theorem answered_resultValue :
    (done (Handler.resultValue world frame)).answered immediate? [] =
      resultValue.eval world frame immediate? [] := by
  rw [Handler.resultValue, eval_nil, rule]
  cases world.fibers.find? frame.fiber with
  | none | some => rfl

theorem answered_fiberHandle (first : Sampling Value) :
    (Handler.fiberHandle world frame).answered immediate? [first] =
      fiberHandle.eval world frame immediate? [first] := by
  rw [Handler.fiberHandle, answered_int32_bind, eval_one_unchecked rfl]
  refine congrArg first.andThen (funext fun v => ?_)
  rw [rule, Rule.unary, Rule.sampled]
  by_cases negative : v.toInt32 < 0
  · rw [if_pos negative, if_pos negative]
    rfl
  · rw [if_neg negative, if_neg negative]
    cases world.fibers.at? v.toInt32.toNatClampNeg with
    | none | some => rfl

theorem answered_random (first : Sampling Value) :
    Handler.random.answered immediate? [first] =
      random.eval world frame immediate? [first] := by
  rw [Handler.random, answered_binary64_bind, eval_one_unchecked rfl]
  refine congrArg first.andThen (funext fun v => ?_)
  refine (answered_draw_done ..).trans (congrArg Sampling.drawn (funext fun generator => ?_))
  cases generator.drawFraction
  rfl

theorem answered_randomInt (first : Sampling Value) :
    Handler.randomInt.answered immediate? [first] =
      randomInt.eval world frame immediate? [first] := by
  rw [Handler.randomInt, answered_int32_bind, eval_one_unchecked rfl]
  refine congrArg first.andThen (funext fun v => ?_)
  rw [rule, Rule.sampled, integerUpTo]
  by_cases small : v.toInt32 ≤ 0
  · rw [if_pos small, if_pos small]
    rfl
  · rw [if_neg small, if_neg small]
    refine (answered_draw_done ..).trans (congrArg Sampling.drawn (funext fun generator => ?_))
    -- `rfl` alone would have the draw itself evaluated.
    cases generator.drawUpTo v.toInt32.toNatClampNeg (Handler.toNatClampNeg_add_one_lt v.toInt32)
    rfl

theorem answered_loadBuffer (first second third : Sampling Value) :
    (Handler.loadBuffer world).answered immediate? [first, second, third] =
      loadBuffer.eval world frame immediate? [first, second, third] := by
  rw [Handler.loadBuffer, answered_buffer_bind, eval_three]
  refine congrArg (Sampling.andThen _) (funext fun v => ?_)
  rw [answered_uint32_bind]
  refine congrArg second.andThen (funext fun w => ?_)
  rw [answered_uint32_bind]
  refine congrArg third.andThen (funext fun x => ?_)
  rw [rule, Rule.ternary]
  cases NumberFormat.ofNat w.toInt32.toUInt32.toNat with
  | error | ok => rfl

end

/-- Every procedure does what the rule of its opcode says. -/
theorem answered_handler (shaped : immediate?.isSome = opcode.hasImmediate)
    {operands : List (Sampling Value)} (fits : operands.length = opcode.arity) :
    (opcode.handler world frame).answered immediate? operands =
      opcode.eval world frame immediate? operands := by
  -- The shape of the opcode says what the immediate operand and the list of operands look like.
  cases opcode with
  | invalid | now | packetSize | eventCode | registerGetCode | commandCode | reportCode
  | packetBuffer | literalNull | literalTrue | literalFalse | literalNaN =>
    obtain rfl := List.length_eq_zero_iff.1 fits
    rfl
  | resultValue =>
    obtain rfl := List.length_eq_zero_iff.1 fits
    exact answered_resultValue world frame immediate?
  | loadLocal =>
    obtain ⟨n, rfl⟩ := Option.isSome_iff_exists.1 shaped
    obtain rfl := List.length_eq_zero_iff.1 fits
    exact answered_loadLocal world frame n
  | loadParam =>
    obtain ⟨n, rfl⟩ := Option.isSome_iff_exists.1 shaped
    obtain rfl := List.length_eq_zero_iff.1 fits
    exact answered_loadParam world frame n
  | loadGlobal | literalDouble =>
    obtain ⟨n, rfl⟩ := Option.isSome_iff_exists.1 shaped
    obtain rfl := List.length_eq_zero_iff.1 fits
    exact answered_require none _ _ []
  | literal =>
    obtain ⟨n, rfl⟩ := Option.isSome_iff_exists.1 shaped
    obtain rfl := List.length_eq_zero_iff.1 fits
    rfl
  | staticRole =>
    obtain ⟨n, rfl⟩ := Option.isSome_iff_exists.1 shaped
    obtain rfl := List.length_eq_zero_iff.1 fits
    exact answered_staticRole world frame n
  | staticBuffer =>
    obtain ⟨n, rfl⟩ := Option.isSome_iff_exists.1 shaped
    obtain rfl := List.length_eq_zero_iff.1 fits
    exact answered_staticBuffer world frame n
  | fiberHandle =>
    obtain ⟨first, rfl⟩ := List.length_eq_one_iff.1 fits
    exact answered_fiberHandle world frame immediate? first
  | random =>
    obtain ⟨first, rfl⟩ := List.length_eq_one_iff.1 fits
    exact answered_random world frame immediate? first
  | randomInt =>
    obtain ⟨first, rfl⟩ := List.length_eq_one_iff.1 fits
    exact answered_randomInt world frame immediate? first
  | length | typeOf | unary =>
    obtain ⟨first, rfl⟩ := List.length_eq_one_iff.1 fits
    rw [eval_one_unchecked rfl]
    rfl
  | roleIsConnected =>
    obtain ⟨first, rfl⟩ := List.length_eq_one_iff.1 fits
    rw [handler, Handler.roleIsConnected, answered_roleIndex_bind, eval_one]
    rfl
  | field =>
    obtain ⟨n, rfl⟩ := Option.isSome_iff_exists.1 shaped
    obtain ⟨first, rfl⟩ := List.length_eq_one_iff.1 fits
    rw [handler, Handler.field, answered_nextImmediate_bind, answered_objectIndex_bind, eval_one]
    rfl
  | keyCount =>
    obtain ⟨first, rfl⟩ := List.length_eq_one_iff.1 fits
    rw [handler, Handler.keyCount, answered_objectIndex_bind, eval_one]
    rfl
  | element =>
    obtain ⟨first, second, rfl⟩ := List.length_eq_two.1 fits
    rw [handler, Handler.element, answered_objectIndex_bind, eval_two]
    rfl
  | stringMatch =>
    obtain ⟨first, second, rfl⟩ := List.length_eq_two.1 fits
    rw [handler, Handler.stringMatch, answered_buffer_bind, eval_two]
    rfl
  | binary =>
    obtain ⟨first, second, rfl⟩ := List.length_eq_two.1 fits
    rw [eval_two_unchecked rfl]
    rfl
  | loadBuffer =>
    obtain ⟨first, second, third, rfl⟩ := List.length_eq_three.1 fits
    exact answered_loadBuffer world frame immediate? first second third

end Opcode
end NodeScript
