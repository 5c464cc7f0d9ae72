import NodeScript.Assembler
import NodeScript.Proofs.HostOperation
import NodeScript.Proofs.NormalizedValue
import NodeScript.Proofs.ProcedureResult

/-!
# Evaluation has normalized values only

A host may put a NaN of any bits into local variables, parameters, the results of fibers, packets and
float literals. Every opcode normalizes what it takes from there, and what the host gives to a global
variable is normalized before it is kept. So no value of an expression holds a NaN as a double.
-/
namespace NodeScript

open Value Procedure.Ensures

theorem Image.isNormalized_float? {image : Image} {index : UInt32} {v : Value}
    (h : image.float? index = some v) : v.IsNormalized := by
  obtain ⟨number, -, rfl⟩ := Option.map_eq_some_iff.1 h
  exact isNormalized_ofBinary64 number

namespace Handler

variable (world : World) (frame : Frame)

theorem of_lookup? {kind : Value → Prop} {table : Array Value}
    (entries : ∀ (index : Nat) (v : Value), table[index]? = some v → kind v) {index : Int32}
    {v : Value} (h : lookup? table index = some v) : kind v := by
  rw [lookup?] at h
  split at h
  · cases h
  · exact entries _ _ h

theorem isNormalized_resultValue : (resultValue world frame).IsNormalized := by
  rw [resultValue]
  split
  · exact isNormalized_normalized _
  · trivial

theorem isNormalized_codeIf (applies : Bool) (code : UInt32) : (codeIf applies code).IsNormalized := by
  cases applies with
  | false | true => trivial

theorem isNormalized_lengthOf (v : Value) : (lengthOf world v).IsNormalized := by
  rw [lengthOf]
  split <;> trivial

theorem loadParam_ensures : (loadParam frame).Ensures IsNormalized IsNormalized := by
  refine after fun index => ?_
  split
  · exact .done (isNormalized_normalized _)
  · exact .done trivial

theorem loadBuffer_ensures : (loadBuffer world).Ensures IsNormalized IsNormalized := by
  refine after fun source => after fun format => after fun offset => ?_
  split
  · next format _ => exact .done (format.isNormalized_read _ _)
  · exact .fail _

theorem fiberHandle_ensures : (fiberHandle world frame).Ensures IsNormalized IsNormalized := by
  refine after fun position => ?_
  split
  · exact .done trivial
  · split <;> exact .done trivial

theorem random_ensures : random.Ensures IsNormalized IsNormalized := by
  refine after fun x => .draw fun {generator v after} sampled => .done ?_
  revert sampled
  cases generator.drawFraction
  rintro ⟨⟩
  exact isNormalized_ofBinary64 _

theorem randomInt_ensures : randomInt.Ensures IsNormalized IsNormalized := by
  refine after fun bound => ?_
  split
  · exact .done trivial
  · refine .draw fun {generator v after} sampled => .done ?_
    revert sampled
    cases generator.drawUpTo bound.toNatClampNeg (toNatClampNeg_add_one_lt bound)
    rintro ⟨⟩
    trivial

end Handler

/-- The procedure of every opcode makes normalized values out of normalized operands, where the global
variables hold no other values. -/
theorem Opcode.handler_ensures_isNormalized {world : World} (frame : Frame)
    (globals : ∀ (index : Nat) (v : Value), world.globals[index]? = some v → v.IsNormalized)
    (opcode : Opcode) : (opcode.handler world frame).Ensures IsNormalized IsNormalized := by
  cases opcode with
  | invalid => exact .fail _
  | loadLocal => exact after fun _ => after fun v => .done (isNormalized_normalized v)
  | loadParam => exact Handler.loadParam_ensures frame
  | loadGlobal => exact after fun _ => require fun _ => Handler.of_lookup? globals
  | loadBuffer => exact Handler.loadBuffer_ensures world
  | literal => exact after fun _ => .done trivial
  | literalDouble => exact after fun _ => require fun _ => Image.isNormalized_float?
  | resultValue => exact .done (Handler.isNormalized_resultValue world frame)
  | now => exact .done (isNormalized_ofBinary64 _)
  | eventCode | registerGetCode | commandCode | reportCode =>
    exact .done (Handler.isNormalized_codeIf _ _)
  | fiberHandle => exact Handler.fiberHandle_ensures world frame
  | stringMatch | staticRole | staticBuffer => exact after fun _ => after fun _ => .done trivial
  | roleIsConnected | typeOf => exact after fun _ => .done trivial
  | field | element => exact after fun _ => after fun _ => .fail _
  | keyCount => exact after fun _ => .fail _
  | length => exact after fun v => .done (Handler.isNormalized_lengthOf world v)
  | random => exact Handler.random_ensures
  | randomInt => exact Handler.randomInt_ensures
  | unary operator =>
    exact value_bind fun _ plain => .done (operator.isNormalized_apply_of_operand plain)
  | binary operator => exact after fun _ => .done (operator.isNormalized_apply _ _)
  | packetSize | packetBuffer | literalNull | literalTrue | literalFalse | literalNaN =>
    exact .done trivial

namespace Engine

/-- The global variables hold normalized values only. -/
def HasNormalizedGlobals (engine : Engine) : Prop :=
  ∀ (index : Nat) (v : Value), engine.globals[index]? = some v → v.IsNormalized

variable {engine : Engine} (frame : Frame)

theorem perform_ensures (globals : engine.HasNormalizedGlobals) {α : Type} {results : α → Prop}
    {procedure : Procedure α} (ensured : procedure.Ensures IsNormalized results) {a : α}
    (h : (engine.perform frame procedure).1 = .ok a) : results a :=
  ensured.of_run_ok
    (of_evaluate_ok (fun _ => trivial) (Opcode.handler_ensures_isNormalized frame globals))
    (Prod.ext h rfl)

theorem isNormalized_evalValue (globals : engine.HasNormalizedGlobals) {v : Value}
    (h : (engine.evalValue frame).1 = .ok v) : v.IsNormalized :=
  perform_ensures frame globals (.operand fun _ plain => .done plain) h

theorem isNormalized_evalPair (globals : engine.HasNormalizedGlobals) {left right : Value}
    (h : (engine.evalPair frame).1 = .ok (left, right)) :
    left.IsNormalized ∧ right.IsNormalized := by
  have ensured : Procedure.pair.Ensures IsNormalized fun vs =>
      vs.1.IsNormalized ∧ vs.2.IsNormalized :=
    .operand fun _ first => .operand fun _ second => .done ⟨first, second⟩
  exact perform_ensures frame globals ensured h

omit frame in
theorem hasNormalizedGlobals_setGlobal (globals : engine.HasNormalizedGlobals) (index : Nat)
    (v : Value) : (engine.setGlobal index v).2.HasNormalizedGlobals := by
  rw [setGlobal]
  split
  · next inside =>
    intro position entry found
    rw [Array.getElem?_setIfInBounds, if_pos inside] at found
    split at found
    · cases found
      exact isNormalized_normalized v
    · exact globals position entry found
  · exact globals

omit frame in
/-- The host changes global variables by one operation only. -/
theorem hasNormalizedGlobals_apply (globals : engine.HasNormalizedGlobals)
    (operation : HostOperation) : (HostOperation.apply engine operation).2.HasNormalizedGlobals := by
  cases operation with
  | setGlobal index v => exact hasNormalizedGlobals_setGlobal globals index v
  | bindRole role service =>
    simp only [HostOperation.apply, bindRole, setBinding]
    split <;> exact globals
  | unbindRole role =>
    simp only [HostOperation.apply, unbindRole, setBinding]
    split <;> exact globals
  | openFrame function params fiber =>
    simp only [HostOperation.apply, openFrame]
    split <;> exact globals
  | fail | takeFault | setPacket | setNow | setHeap | spawnFiber | killFiber | setFiberStatus
  | setFiberResult | fetchByte | fetchImmediate | evalValue | evalPair | evalUInt32 | evalInt32
  | evalBinary64 | evalBuffer | evalBufferBytes | evalStringIndex | evalRoleIndex
  | evalObjectIndex => exact globals

theorem hasNormalizedGlobals_start (image : Image) (settings : Settings) (entropy : UInt64) :
    (start image settings entropy).HasNormalizedGlobals := by
  intro index v found
  obtain ⟨inside, rfl⟩ := Array.getElem?_eq_some_iff.1 found
  simp only [start, Array.getElem_replicate]
  trivial

theorem hasNormalizedGlobals_runAll (globals : engine.HasNormalizedGlobals)
    (operations : List HostOperation) : (engine.runAll operations).HasNormalizedGlobals :=
  runAll_induction (motive := HasNormalizedGlobals)
    (fun _ operation kept => hasNormalizedGlobals_apply kept operation) globals operations

/-- No NaN gets out as a double. After every run of operations on a new engine, whatever values, bytes
and literals the host gave it, the global variables hold normalized values only, and every value of an
expression, on a frame with any values, is normalized, as are both values of a pair of expressions.
The operators for themselves always give normalized values, except that an absolute value is normalized
only if the operand is. -/
theorem evaluation_isNormalized :
    (∀ (image : Image) (settings : Settings) (entropy : UInt64) (operations : List HostOperation),
      let engine := (start image settings entropy).runAll operations
      (∀ index v, engine.global? index = some v → v.IsNormalized) ∧
      (∀ frame v, (engine.evalValue frame).1 = .ok v → v.IsNormalized) ∧
      (∀ frame left right, (engine.evalPair frame).1 = .ok (left, right) →
        left.IsNormalized ∧ right.IsNormalized)) ∧
    (∀ (operator : BinaryOp) (a b : Value), (operator.apply a b).IsNormalized) ∧
    (∀ (operator : UnaryOp) (v : Value), operator ≠ .abs → operator ≠ .identity →
      (operator.apply v).IsNormalized) ∧
    (∀ v : Value, v.IsNormalized → v.abs.IsNormalized) := by
  refine ⟨fun image settings entropy operations => ?_, BinaryOp.isNormalized_apply,
    fun operator v notAbs notIdentity => operator.isNormalized_apply notAbs notIdentity v,
    fun v => isNormalized_abs⟩
  have globals := hasNormalizedGlobals_runAll (hasNormalizedGlobals_start image settings entropy)
    operations
  exact ⟨globals, fun frame v => isNormalized_evalValue frame globals,
    fun frame left right => isNormalized_evalPair frame globals⟩

/-- A raw NaN from a local variable and one from the host's hands. -/
theorem evaluation_isNormalized_raw_nan :
    let raw : Value := .double ⟨0xFFF0000000000001⟩
    let code := Assembler.opcode (.unary .abs) ++ Assembler.withImmediate .loadLocal 0
    let image := { Image.empty with numGlobals := 1, functions := #[⟨"main", 1, 0, code⟩] }
    let engine := (start image .standard 0).runAll [.setGlobal 0 raw]
    let frame : Frame := ⟨0, 0, #[raw], #[], 0⟩
    ¬raw.IsNormalized ∧ (∃ v, engine.global? 0 = some v ∧ v.IsNormalized) ∧
      ∃ v, (engine.evalValue frame).1 = .ok v ∧ v.IsNormalized := by
  intro raw code image engine frame
  obtain ⟨runs, -⟩ := evaluation_isNormalized
  obtain ⟨stored, evaluated, -⟩ := runs image .standard 0 [.setGlobal 0 raw]
  exact ⟨by decide, ⟨.nan, rfl, stored 0 .nan rfl⟩, .nan, rfl, evaluated frame .nan rfl⟩

end Engine
end NodeScript
