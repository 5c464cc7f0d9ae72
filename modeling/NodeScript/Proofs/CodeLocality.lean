import NodeScript.Assembler
import NodeScript.Proofs.FramePosition
import NodeScript.Proofs.HostOperation

/-!
# Evaluation sees only the code it reads

An evaluation that does not come to the end of the code has taken some code off the front and looked at
no more. So the same bytes evaluate alike wherever they stand in a function, whatever stands before
them and behind them.
-/
namespace NodeScript

namespace Cursor

variable {α : Type}

/-- The action takes some code off the front and looks at no more of it, unless it comes to the end of
the code: with any other code behind what it takes, it comes to the same and stops there. -/
def LocalAt (action : Cursor → Except Fault α × Cursor) (start : Cursor) : Prop :=
  (action start).1 ≠ .error .codeOverrun → ∃ taken, start.rest = taken ++ (action start).2.rest ∧
    ∀ other, action { start with rest := taken ++ other } =
      ((action start).1, { (action start).2 with rest := other })

theorem localAt_fail (fault : Fault) (start : Cursor) :
    LocalAt (fail fault : Cursor → Except Fault α × Cursor) start :=
  fun _ => ⟨[], rfl, fun _ => rfl⟩

theorem localAt_readImmediate (start : Cursor) : LocalAt readImmediate start := by
  intro fine
  cases read : Operand.read? start.rest with
  | none =>
    rw [readImmediate_none read] at fine
    exact absurd rfl fine
  | some operand =>
    obtain ⟨taken, code, anywhere⟩ := Operand.read?_append read
    rw [readImmediate_some read]
    exact ⟨taken, code, fun other => readImmediate_some (anywhere other)⟩

theorem localAt_nested {action : Cursor → Except Fault α × Cursor} {start : Cursor}
    (inner : LocalAt action { start with depth := start.depth + 1 }) :
    LocalAt (nested action) start := by
  intro fine
  obtain ⟨taken, code, anywhere⟩ := inner fine
  refine ⟨taken, code, fun other => ?_⟩
  rw [nested, nested, anywhere other]

/-- Code that is empty or starts with a compact literal is read in the same way everywhere. -/
theorem localAt_readExpression {opcode : UInt8 → Cursor → Except Fault Value × Cursor}
    {start : Cursor} (of_opcode : ∀ byte next, LocalAt (opcode byte) next) :
    LocalAt (readExpression opcode) start := by
  intro fine
  cases code : start.rest with
  | nil =>
    rw [readExpression_nil code] at fine
    exact absurd rfl fine
  | cons byte rest =>
    by_cases compact : compactBase ≤ byte
    · rw [readExpression_compact code compact]
      exact ⟨[byte], rfl, fun _ => readExpression_compact rfl compact⟩
    · rw [readExpression_opcode code compact] at fine ⊢
      obtain ⟨taken, behind, anywhere⟩ := of_opcode byte { start with rest } fine
      refine ⟨byte :: taken, congrArg (byte :: ·) behind, fun other => ?_⟩
      rw [List.cons_append, readExpression_opcode rfl compact]
      exact anywhere other

/-- What two steps take off the front they take off together. -/
theorem LocalAt.andThen {β : Type} {action : Cursor → Except Fault α × Cursor}
    {first : Cursor → Except Fault β × Cursor} {next : β → Cursor → Except Fault α × Cursor}
    (stops : ∀ {cursor fault stop}, first cursor = (.error fault, stop) →
      action cursor = (.error fault, stop))
    (goes_on : ∀ {cursor b middle}, first cursor = (.ok b, middle) → action cursor = next b middle)
    {start : Cursor} (step : LocalAt first start) (others : ∀ b middle, LocalAt (next b) middle) :
    LocalAt action start := by
  intro fine
  cases ran : first start with
  | mk result middle =>
    cases result with
    | error fault =>
      rw [stops ran] at fine ⊢
      obtain ⟨taken, code, anywhere⟩ := step (by simpa [ran] using fine)
      rw [ran] at code anywhere
      exact ⟨taken, code, fun other => stops (anywhere other)⟩
    | ok b =>
      rw [goes_on ran] at fine ⊢
      obtain ⟨taken, code, anywhere⟩ := step (by simp [ran])
      obtain ⟨more, behind, anywhere_more⟩ := others b middle fine
      rw [ran] at code anywhere
      refine ⟨taken ++ more, ?_, fun other => ?_⟩
      · rw [code, behind, List.append_assoc]
      · rw [List.append_assoc, goes_on (anywhere (more ++ other))]
        exact anywhere_more other

end Cursor

open Cursor

variable {α : Type}

theorem Procedure.localAt_run {evaluate : Cursor → Except Fault Value × Cursor}
    (evaluated : ∀ start, LocalAt evaluate start) (procedure : Procedure α) (start : Cursor) :
    LocalAt (procedure.run evaluate) start := by
  induction procedure generalizing start with
  | done => exact fun _ => ⟨[], rfl, fun _ => rfl⟩
  | fail => exact localAt_fail _ start
  | immediate next ih =>
    refine .andThen (fun read => ?_) (fun read => ?_) (localAt_readImmediate start) ih
    · rw [run, read]
    · rw [run, read]
  | operand next ih =>
    refine .andThen (fun answer => ?_) (fun answer => ?_) (evaluated start) ih
    · rw [run, answer]
    · rw [run, answer]
  | draw sample next ih => exact ih _ _

theorem localAt_dispatch (world : World) (frame : Frame)
    {evaluate : Cursor → Except Fault Value × Cursor} (evaluated : ∀ start, LocalAt evaluate start)
    (byte : UInt8) (start : Cursor) : LocalAt (dispatch world frame evaluate byte) start := by
  cases declared : Opcode.ofByte? byte with
  | none =>
    rw [dispatch_undeclared declared]
    exact localAt_fail _ start
  | some opcode =>
    rw [dispatch_declared declared]
    exact Procedure.localAt_run evaluated _ start

/-- Evaluation looks at no code but what it takes off the front. -/
theorem localAt_evaluate (world : World) (frame : Frame) (room : Nat) (start : Cursor) :
    LocalAt (evaluate world frame room) start := by
  induction room generalizing start with
  | zero => exact localAt_readExpression fun _ next => localAt_fail _ next
  | succ room ih =>
    exact localAt_readExpression fun byte next =>
      localAt_nested (localAt_dispatch world frame ih byte _)

/-! ### Other code in a function -/

/-- The image with other code in one of its functions. -/
def Image.withCode (image : Image) (function : UInt32) (code : Bytes) : Image :=
  { image with functions := image.functions.modify function.toNat fun callee => { callee with code } }

theorem Image.function?_withCode (image : Image) (function : UInt32) (code : Bytes) :
    (image.withCode function code).function? function =
      (image.function? function).map fun callee => { callee with code } := by
  simp [withCode, function?, Array.getElem?_modify]

/-- The world with other code in a function of its image. -/
def World.withCode (world : World) (function : UInt32) (code : Bytes) : World :=
  { world with image := world.image.withCode function code }

section
variable (world : World) (frame : Frame) (function : UInt32) (code : Bytes) (pc : Nat)

/-- No opcode looks at the code of functions or at the position in it. -/
theorem Opcode.handler_withCode (opcode : Opcode) :
    opcode.handler (world.withCode function code) { frame with pc } = opcode.handler world frame := by
  cases opcode <;> rfl

end

namespace Engine

/-- The engine with other code in a function of its image. -/
def withCode (engine : Engine) (function : UInt32) (code : Bytes) : Engine :=
  { engine with toWorld := engine.toWorld.withCode function code }

/-- The answer with the frame so much further on, and with other code in its function. -/
def relocated (offset : Nat) (code : Bytes) (answer : Except Fault α × Frame × Engine) :
    Except Fault α × Frame × Engine :=
  (answer.1, { answer.2.1 with pc := offset + answer.2.1.pc },
    answer.2.2.withCode answer.2.1.function code)

section
variable {engine : Engine} {frame : Frame} {offset : Nat} {code : Bytes}

/-- The function has the other code, or there is no such function. -/
theorem functionCode_withCode (engine : Engine) (frame : Frame) (code : Bytes) :
    (engine.withCode frame.function code).functionCode frame = code ∨
      engine.functionCode frame = [] ∧
        (engine.withCode frame.function code).functionCode frame = [] := by
  simp only [World.functionCode, withCode, World.withCode, Image.function?_withCode]
  cases engine.image.function? frame.function with
  | none => exact .inr ⟨rfl, rfl⟩
  | some callee => exact .inl rfl

theorem perform_withCode (procedure : Procedure α) (pc : Nat) :
    (engine.withCode frame.function code).perform { frame with pc } procedure =
      (engine.withCode frame.function code).move { frame with pc }
        (procedure.run (evaluate engine.toWorld frame (engine.settings.maxDepth - engine.depth))) :=
  congrArg (fun evaluate => (engine.withCode frame.function code).move { frame with pc }
    (procedure.run evaluate))
    (congrFun (evaluate_congr (Opcode.handler_withCode engine.toWorld frame frame.function code pc)) _)

/-- An action that comes to the same at other code, and takes as much of it, relocates. -/
theorem move_withCode {action : Cursor → Except Fault α × Cursor} {rest after : Bytes}
    {result : Except Fault α} {stop : Cursor} (here : action (engine.cursor frame) = (result, stop))
    (code_there : ((engine.withCode frame.function code).functionCode frame).drop
      (offset + frame.pc) = rest)
    (there : action { engine.cursor frame with rest } = (result, { stop with rest := after }))
    (length : rest.length - after.length =
      (engine.cursor frame).rest.length - stop.rest.length) :
    (engine.withCode frame.function code).move { frame with pc := offset + frame.pc } action =
      relocated offset code (engine.move frame action) := by
  have read : ((engine.withCode frame.function code).cursor
      { frame with pc := offset + frame.pc }).rest = rest :=
    ((engine.withCode frame.function code).cursor_rest _).trans code_there
  have cursor : (engine.withCode frame.function code).cursor
      { frame with pc := offset + frame.pc } = { engine.cursor frame with rest } := by
    rw [← read]
    rfl
  simp only [move, relocated, cursor, here, there, length, Nat.add_assoc]
  rfl

/-- What came to an end other than that of the code comes to the same wherever the bytes stand that
it took. -/
theorem perform_relocated {procedure : Procedure α} {pc : Nat} (position : pc = offset + frame.pc)
    (fine : (engine.perform frame procedure).1 ≠ .error .codeOverrun)
    (stands : ((engine.functionCode frame).drop frame.pc).take
      ((engine.perform frame procedure).2.1.pc - frame.pc) <+: code.drop pc) :
    (engine.withCode frame.function code).perform { frame with pc } procedure =
      relocated offset code (engine.perform frame procedure) := by
  subst position
  have start := engine.cursor_rest frame
  obtain ⟨taken, front, anywhere⟩ :=
    procedure.localAt_run (localAt_evaluate engine.toWorld frame _) (engine.cursor frame) fine
  have length : (engine.cursor frame).rest.length - (procedure.run (evaluate engine.toWorld frame
      (engine.settings.maxDepth - engine.depth)) (engine.cursor frame)).2.rest.length =
        taken.length := by
    rw [front, List.length_append, Nat.add_sub_cancel]
  have moved : (engine.perform frame procedure).2.1.pc = frame.pc + taken.length :=
    congrArg (frame.pc + ·) length
  rw [moved, Nat.add_sub_cancel_left, ← start, front, List.take_left] at stands
  obtain ⟨other, behind⟩ := stands
  rw [perform_withCode]
  rcases engine.functionCode_withCode frame code with there | ⟨missing, missing_there⟩
  · refine move_withCode rfl (by rw [there, ← behind]) (anywhere other) ?_
    rw [length, List.length_append, Nat.add_sub_cancel]
  · -- A frame of no function has no code, so nothing was taken.
    rw [missing, List.drop_nil] at start
    rw [start] at front
    obtain ⟨rfl, -⟩ := List.append_eq_nil_iff.1 front.symm
    refine move_withCode rfl (by rw [missing_there, List.drop_nil]; rfl) (anywhere []) ?_
    rw [length]
    rfl

/-- Where nothing but the position of the code changes, every outcome stays the same. -/
theorem perform_relocated_of_drop_eq (procedure : Procedure α)
    (same : code.drop (offset + frame.pc) = (engine.functionCode frame).drop frame.pc) :
    (engine.withCode frame.function code).perform { frame with pc := offset + frame.pc } procedure =
      relocated offset code (engine.perform frame procedure) := by
  have start := engine.cursor_rest frame
  rw [perform_withCode]
  refine move_withCode rfl (Eq.trans ?_ start.symm) rfl rfl
  rcases engine.functionCode_withCode frame code with there | ⟨missing, missing_there⟩
  · rw [there, same]
  · rw [missing_there, missing, List.drop_nil, List.drop_nil]

end

/-- The evaluation sees only the code that it reads. -/
structure IsLocal (evaluation : Engine → Frame → Except Fault α × Frame × Engine) : Prop where
  /-- With any code before it and behind it the function's code evaluates alike, so much further on,
  but for code that ends too early and has more behind it now. -/
  relocates : ∀ engine frame before after,
    (evaluation engine frame).1 ≠ .error .codeOverrun ∨ after = [] →
    evaluation (engine.withCode frame.function (before ++ engine.functionCode frame ++ after))
        { frame with pc := before.length + frame.pc } =
      relocated before.length (before ++ engine.functionCode frame ++ after)
        (evaluation engine frame)
  /-- All code with the same bytes from the position that it starts at to the one that it ends at
  evaluates alike. -/
  ignores : ∀ engine frame code, (evaluation engine frame).1 ≠ .error .codeOverrun →
    (∀ position, frame.pc ≤ position → position < (evaluation engine frame).2.1.pc →
      code[position]? = (engine.functionCode frame)[position]?) →
    evaluation (engine.withCode frame.function code) frame =
      relocated 0 code (evaluation engine frame)

theorem take_drop_prefix_of_same {code other : Bytes} {start stop : Nat}
    (same : ∀ position, start ≤ position → position < stop → other[position]? = code[position]?) :
    (code.drop start).take (stop - start) <+: other.drop start := by
  have equal : (code.drop start).take (stop - start) = (other.drop start).take (stop - start) := by
    apply List.ext_getElem?
    intro index
    simp only [List.getElem?_take, List.getElem?_drop]
    split
    · exact (same (start + index) (by omega) (by omega)).symm
    · rfl
  rw [equal]
  exact List.take_prefix _ _

theorem isLocal_perform (procedure : World → Procedure α)
    (unaffected : ∀ world function code, procedure (world.withCode function code) = procedure world) :
    IsLocal fun engine frame => engine.perform frame (procedure engine.toWorld) := by
  have same_procedure : ∀ (engine : Engine) function code,
      procedure (engine.withCode function code).toWorld = procedure engine.toWorld :=
    fun engine => unaffected engine.toWorld
  constructor
  · intro engine frame before after fine
    have there : (before ++ engine.functionCode frame ++ after).drop (before.length + frame.pc) =
        (engine.functionCode frame ++ after).drop frame.pc := by
      rw [← List.drop_drop, List.append_assoc, List.drop_left]
    simp only [same_procedure]
    rcases fine with fine | rfl
    · refine perform_relocated rfl fine ?_
      rw [there, List.drop_append]
      exact (List.take_prefix _ _).trans (List.prefix_append _ _)
    · refine perform_relocated_of_drop_eq _ ?_
      rw [there, List.append_nil]
  · intro engine frame code fine same
    simp only [same_procedure]
    exact perform_relocated (Nat.zero_add _).symm fine (take_drop_prefix_of_same same)

/-- Evaluation does not depend on where code stands, and looks only at the bytes that it consumes. With
other code before and behind a function's code, every evaluation on it comes to the same value or
fault, leaves the generator and the most recent fault the same, and ends so much further on, unless it
overran the code and something stands behind that now. And with other bytes anywhere but between the
position that it starts at and the one that it ends at, nothing changes at all. -/
theorem evaluation_isLocal : EveryEvaluation fun _ => IsLocal where
  value := isLocal_perform (fun _ => Procedure.value) fun _ _ _ => rfl
  pair := isLocal_perform (fun _ => Procedure.pair) fun _ _ _ => rfl
  uint32 := isLocal_perform (fun _ => Procedure.uint32) fun _ _ _ => rfl
  int32 := isLocal_perform (fun _ => Procedure.int32) fun _ _ _ => rfl
  binary64 := isLocal_perform (fun _ => Procedure.binary64) fun _ _ _ => rfl
  buffer := isLocal_perform Procedure.buffer fun _ _ _ => rfl
  bufferBytes := isLocal_perform Procedure.bufferBytes fun _ _ _ => rfl
  stringIndex := isLocal_perform Procedure.stringIndex fun _ _ _ => rfl
  roleIndex := isLocal_perform Procedure.roleIndex fun _ _ _ => rfl
  objectIndex := isLocal_perform (fun _ => Procedure.objectIndex) fun _ _ _ => rfl

/-- A sum keeps its value behind a stray byte, in front of the head of an operand, and with the byte
behind it changed; without its second term it is an overrun there too. -/
theorem evaluation_isLocal_sum :
    let sum := Assembler.opcode (.binary .add) ++ [0x91, 0x92]
    let engine (code : Bytes) := start
      { Image.empty with functions := #[⟨"main", 0, 0, code⟩] } .standard 0
    let result (engine : Engine) (pc : Nat) := (engine.evalValue ⟨0, pc, #[], #[], 0⟩).1
    result ((engine sum).withCode 0 ([0xFF] ++ sum ++ [0xF8])) 1 = .ok (.int 3) ∧
      result ((engine (sum ++ [0])).withCode 0 (sum ++ [0xF8])) 0 = .ok (.int 3) ∧
      result ((engine (sum.take 2)).withCode 0 ([0xFF] ++ sum.take 2 ++ [])) 1 =
        .error .codeOverrun := by
  intro sum engine result
  have isLocal := evaluation_isLocal.value
  have relocated := isLocal.relocates (engine sum) ⟨0, 0, #[], #[], 0⟩ [0xFF] [0xF8]
    (.inl (by rintro ⟨⟩))
  have stop : ((engine (sum ++ [0])).evalValue ⟨0, 0, #[], #[], 0⟩).2.1.pc = 3 := rfl
  have ignored := isLocal.ignores (engine (sum ++ [0])) ⟨0, 0, #[], #[], 0⟩ (sum ++ [0xF8])
    (by rintro ⟨⟩) (by
      intro position _ before
      rw [stop] at before
      rcases position with _ | _ | _ | position
      · rfl
      · rfl
      · rfl
      · omega)
  have overrun := isLocal.relocates (engine (sum.take 2)) ⟨0, 0, #[], #[], 0⟩ [0xFF] []
    (.inr rfl)
  exact ⟨congrArg Prod.fst relocated, congrArg Prod.fst ignored, congrArg Prod.fst overrun⟩

end Engine
end NodeScript
