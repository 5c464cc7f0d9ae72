import NodeScript.Proofs.ExpressionExtent

/-!
# Expressions that draw nothing

Two opcodes draw random numbers. A complete expression without them does not look at the generator or
at the most recent fault: with others in their place it ends in the same way and at the same code.
-/
namespace NodeScript

/-- The opcodes that draw random numbers. -/
def Opcode.draws : Opcode → Bool
  | .random | .randomInt => true
  | _ => false

/-- The code starts with `count` complete expressions in which no opcode draws, and goes on with
`rest`. -/
inductive DrawlessExpressions : (count : Nat) → (code rest : Bytes) → Prop where
  | none (code : Bytes) : DrawlessExpressions 0 code code
  | compact {count : Nat} {byte : UInt8} {code rest : Bytes} (compact : compactBase ≤ byte)
      (others : DrawlessExpressions count code rest) :
      DrawlessExpressions (count + 1) (byte :: code) rest
  | opcode {count : Nat} {byte : UInt8} {opcode : Opcode} {code operands following rest : Bytes}
      (declared : Opcode.ofByte? byte = some opcode) (drawless : opcode.draws = false)
      (immediate : Operand.SpansIf opcode.hasImmediate code operands)
      (within : DrawlessExpressions opcode.arity operands following)
      (others : DrawlessExpressions count following rest) :
      DrawlessExpressions (count + 1) (byte :: code) rest

namespace DrawlessExpressions

variable {count : Nat} {code rest : Bytes}

theorem complete (h : DrawlessExpressions count code rest) :
    ∃ nesting, Expressions count nesting code rest := by
  induction h with
  | none code => exact ⟨0, .none code⟩
  | compact compact _ ih =>
    obtain ⟨nesting, others⟩ := ih
    exact ⟨nesting, .compact compact others⟩
  | opcode declared _ immediate _ _ ih_within ih_others =>
    obtain ⟨inner, within⟩ := ih_within
    obtain ⟨nesting, others⟩ := ih_others
    exact ⟨_, .opcode declared immediate within others⟩

/-- The first of several expressions, and the others. -/
theorem uncons (h : DrawlessExpressions (count + 1) code rest) :
    ∃ middle, DrawlessExpressions 1 code middle ∧ DrawlessExpressions count middle rest := by
  cases h with
  | compact compact others => exact ⟨_, .compact compact (.none _), others⟩
  | opcode declared drawless immediate within others =>
    exact ⟨_, .opcode declared drawless immediate within (.none _), others⟩

end DrawlessExpressions

namespace Procedure

variable {α β : Type}

/-- The procedure asks for no random samples. -/
inductive Drawless : Procedure α → Prop where
  | done (result : α) : Drawless (.done result)
  | fail (fault : Fault) : Drawless (.fail fault)
  | immediate {next : Int32 → Procedure α} (rest : ∀ n, Drawless (next n)) :
      Drawless (.immediate next)
  | operand {next : Value → Procedure α} (rest : ∀ v, Drawless (next v)) : Drawless (.operand next)

namespace Drawless

theorem bind {procedure : Procedure α} {f : α → Procedure β} (first : procedure.Drawless)
    (rest : ∀ a, (f a).Drawless) : (procedure >>= f).Drawless := by
  induction first with
  | done result => exact rest result
  | fail fault => exact .fail fault
  | immediate _ ih => exact .immediate ih
  | operand _ ih => exact .operand ih

theorem nextImmediate : Procedure.nextImmediate.Drawless := .immediate .done

theorem value : Procedure.value.Drawless := .operand .done

theorem pair : Procedure.pair.Drawless := .operand fun _ => .operand fun _ => .done _

theorem int32 : Procedure.int32.Drawless := .operand fun _ => .done _

theorem uint32 : Procedure.uint32.Drawless := .operand fun _ => .done _

theorem binary64 : Procedure.binary64.Drawless := .operand fun _ => .done _

theorem require (fault : Fault) (a? : Option α) : (Procedure.require fault a?).Drawless := by
  cases a? with
  | none => exact .fail fault
  | some a => exact .done a

variable (world : World)

theorem checkString (index : UInt32) : (Procedure.checkString world index).Drawless := by
  rw [Procedure.checkString]
  split
  · exact .done index
  · exact .fail _

theorem checkRole (index : UInt32) : (Procedure.checkRole world index).Drawless := by
  rw [Procedure.checkRole]
  split
  · exact .done index
  · exact .fail _

theorem buffer : (Procedure.buffer world).Drawless := by
  refine .operand fun v => ?_
  cases v with
  | packetBuffer => exact .done _
  | handle kind index =>
    cases kind with
    | imageBuffer => exact (checkString world index).bind fun _ => .done _
    | fiber | role | gcObject => exact .fail _
  | double | int | bool | null | undefined | nan => exact .fail _

theorem bufferBytes : (Procedure.bufferBytes world).Drawless := (buffer world).bind fun _ => .done _

theorem stringIndex : (Procedure.stringIndex world).Drawless :=
  .operand fun _ => (require _ _).bind (checkString world)

theorem roleIndex : (Procedure.roleIndex world).Drawless :=
  .operand fun _ => (require _ _).bind (checkRole world)

theorem objectIndex : Procedure.objectIndex.Drawless := .operand fun _ => require _ _

end Drawless
end Procedure

open Procedure.Drawless

namespace Handler

variable (world : World) (frame : Frame)

theorem loadParam_drawless : (loadParam frame).Drawless := by
  refine nextImmediate.bind fun index => ?_
  split <;> exact .done _

theorem loadBuffer_drawless : (loadBuffer world).Drawless := by
  refine (buffer world).bind fun source => uint32.bind fun format => uint32.bind fun offset => ?_
  split
  · exact .done _
  · exact .fail _

theorem fiberHandle_drawless : (fiberHandle world frame).Drawless := by
  refine int32.bind fun position => ?_
  split
  · exact .done _
  · split <;> exact .done _

end Handler

theorem Opcode.handler_drawless (world : World) (frame : Frame) {opcode : Opcode}
    (h : opcode.draws = false) : (opcode.handler world frame).Drawless := by
  cases opcode with
  | random | randomInt => cases h
  | invalid => exact .fail _
  | loadLocal => exact nextImmediate.bind fun _ => (require _ _).bind fun _ => .done _
  | loadParam => exact Handler.loadParam_drawless frame
  | loadGlobal | literalDouble => exact nextImmediate.bind fun _ => require _ _
  | loadBuffer => exact Handler.loadBuffer_drawless world
  | literal => exact nextImmediate.bind fun _ => .done _
  | stringMatch => exact (buffer world).bind fun _ => uint32.bind fun _ => .done _
  | roleIsConnected => exact (roleIndex world).bind fun _ => .done _
  | fiberHandle => exact Handler.fiberHandle_drawless world frame
  | staticRole => exact nextImmediate.bind fun _ => (checkRole world _).bind fun _ => .done _
  | staticBuffer => exact nextImmediate.bind fun _ => (checkString world _).bind fun _ => .done _
  | field => exact nextImmediate.bind fun _ => objectIndex.bind fun _ => .fail _
  | element => exact objectIndex.bind fun _ => value.bind fun _ => .fail _
  | keyCount => exact objectIndex.bind fun _ => .fail _
  | length | typeOf | unary => exact value.bind fun _ => .done _
  | binary => exact .operand fun _ => .operand fun _ => .done _
  | resultValue | now | packetSize | eventCode | registerGetCode | commandCode | reportCode
  | packetBuffer | literalNull | literalTrue | literalFalse | literalNaN => exact .done _

namespace Cursor

variable {α : Type}

/-- The outcome with another generator and another most recent fault, unless it is a fault itself. -/
def transferred (generator : Generator) (lastFault : Option Fault) :
    Except Fault α × Cursor → Except Fault α × Cursor
  | (.ok a, stop) => (.ok a, { stop with generator, lastFault })
  | (.error fault, stop) => (.error fault, { stop with generator, lastFault := some fault })

/-- With whatever generator and most recent fault the action starts at the cursor, it leaves the
generator alone and does everything else in the same way. -/
def Indifferent (action : Cursor → Except Fault α × Cursor) (start : Cursor) : Prop :=
  ∀ generator lastFault,
    action { start with generator, lastFault } = transferred generator lastFault (action start)

theorem indifferent_fail (fault : Fault) (start : Cursor) :
    Indifferent (fail fault : Cursor → Except Fault α × Cursor) start := fun _ _ => rfl

theorem indifferent_nested {action : Cursor → Except Fault α × Cursor} {start : Cursor}
    (inner : Indifferent action { start with depth := start.depth + 1 }) :
    Indifferent (nested action) start := by
  intro generator lastFault
  have same := inner generator lastFault
  simp only [nested] at same ⊢
  rw [same]
  obtain ⟨_ | _, stop⟩ := action { start with depth := start.depth + 1 }
  · rfl
  · rfl

/-- Code that is empty or starts with a compact literal is read in the same way everywhere. -/
theorem indifferent_readExpression {opcode : UInt8 → Cursor → Except Fault Value × Cursor}
    {start : Cursor} (indifferent : ∀ byte rest, start.rest = byte :: rest →
      ¬compactBase ≤ byte → Indifferent (opcode byte) { start with rest }) :
    Indifferent (readExpression opcode) start := by
  obtain ⟨code, depth, drawn, last⟩ := start
  intro generator lastFault
  cases code with
  | nil => rfl
  | cons byte rest =>
    by_cases compact : compactBase ≤ byte
    · simp only [readExpression, readByte, if_pos compact, transferred]
    · simp only [readExpression, readByte, if_neg compact]
      exact indifferent byte rest rfl compact generator lastFault

end Cursor

open Cursor

/-- A procedure that draws nothing is run indifferently where the evaluations of its operands are. -/
theorem Procedure.HasShape.indifferent_run {α : Type} {room : Nat}
    {evaluate : Cursor → Except Fault Value × Cursor} (reads : ReadsExpressions room evaluate)
    (evaluated : ∀ {start rest}, DrawlessExpressions 1 start.rest rest → Indifferent evaluate start)
    {procedure : Procedure α} {due : Bool} {count : Nat} (shape : procedure.HasShape due count)
    (drawless : procedure.Drawless) {start : Cursor} {operands rest : Bytes}
    (immediate : Operand.SpansIf due start.rest operands)
    (within : DrawlessExpressions count operands rest) :
    Indifferent (procedure.run evaluate) start := by
  induction shape generalizing start operands with
  | done | fail => exact fun _ _ => rfl
  | @immediate next _ _ ih =>
    cases drawless with | immediate rest_drawless =>
    obtain ⟨n, read⟩ := Operand.Spans.exists_read? immediate
    have inner : Indifferent ((next n).run evaluate) { start with rest := operands } :=
      ih n (rest_drawless n) rfl within
    intro generator lastFault
    have there : readImmediate { start with generator, lastFault } =
        (.ok n, { start with rest := operands, generator, lastFault }) := readImmediate_some read
    rw [run, run, there, readImmediate_some read]
    exact inner generator lastFault
  | operand _ ih =>
    cases drawless with | operand rest_drawless =>
    obtain rfl : operands = start.rest := immediate
    obtain ⟨middle, one, others⟩ := within.uncons
    intro generator lastFault
    rw [run, run, evaluated one generator lastFault]
    cases first : evaluate start with
    | mk result stop =>
      cases result with
      | error fault => rfl
      | ok v =>
        -- The operand ends where the expression does, so that the next one starts there.
        obtain ⟨nesting, -, read⟩ := reads.ok first
        obtain ⟨_, complete⟩ := one.complete
        obtain ⟨-, rfl⟩ := complete.unique read
        exact ih v (rest_drawless v) rfl others generator lastFault
  | draw => cases drawless

/-- Evaluating an expression in which no opcode draws is indifferent to the generator and the most
recent fault. -/
theorem indifferent_evaluate (world : World) (frame : Frame) {room : Nat} {start : Cursor}
    {rest : Bytes} (one : DrawlessExpressions 1 start.rest rest) :
    Indifferent (evaluate world frame room) start := by
  induction room generalizing start rest with
  | zero => exact indifferent_readExpression fun _ _ _ _ => indifferent_fail _ _
  | succ room ih =>
    refine indifferent_readExpression fun byte code starts large => indifferent_nested ?_
    rw [starts] at one
    cases one with
    | compact compact => exact absurd compact large
    | opcode declared drawless immediate within others =>
      rw [dispatch_declared declared]
      exact (Opcode.handler_shape world frame _).indifferent_run
        (evaluate_readsExpressions world frame room) ih
        (Opcode.handler_drawless world frame drawless) immediate within

end NodeScript
