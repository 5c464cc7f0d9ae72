import NodeScript.Assembler
import NodeScript.Proofs.CursorLaw
import NodeScript.Proofs.HostOperation

/-!
# The record of the most recent fault

Whatever fails leaves its fault in the record, and whatever succeeds leaves the record alone. So after
a run of operations the record holds the fault of the last one that failed, unless it was taken since.
-/
namespace NodeScript

/-- A fault is recorded, and a success leaves the record as it was. -/
def CursorLaw.recording : CursorLaw where
  succeeds start stop := stop.lastFault = start.lastFault
  fails _ fault stop := stop.lastFault = some fault

theorem CursorLaw.recording_closed : CursorLaw.recording.Closed where
  refl _ := rfl
  trans first second := second.trans first
  trans_fails _ second := second
  fail _ _ := rfl
  readByte := governs_readByte (fun _ => rfl) fun _ => rfl
  readImmediate := governs_readImmediate (fun _ => rfl) fun _ => rfl
  draw _ _ := rfl
  nested h := h
  nested_fails h := h

namespace Engine

variable {α : Type} {engine after : Engine} {result : Except Fault α} {frame : Frame}

/-- The record after an operation agrees with what the operation came to. -/
def Records (engine : Engine) : Except Fault α → Engine → Prop
  | .ok _, after => after.lastFault = engine.lastFault
  | .error fault, after => after.lastFault = some fault

/-- The record agrees, and where the operation failed nothing else has changed. -/
def RecordsOnly (engine : Engine) : Except Fault α → Engine → Prop
  | .ok _, after => after.lastFault = engine.lastFault
  | .error fault, after => after = engine.fail fault

theorem RecordsOnly.records (h : engine.RecordsOnly result after) : engine.Records result after := by
  cases result with
  | ok a => exact h
  | error fault =>
    have refused : after = engine.fail fault := h
    rw [refused]
    rfl

/-- What a success hands out does not matter to the record. -/
theorem Records.map {β : Type} (h : engine.Records result after) (f : α → β) :
    engine.Records (result.map f) after := by
  cases result with
  | ok a => exact h
  | error fault => exact h

theorem records_move {action : Cursor → Except Fault α × Cursor}
    (governed : CursorLaw.recording.Governs action) :
    engine.Records (engine.move frame action).1 (engine.move frame action).2.2 := by
  have recorded := governed (engine.cursor frame)
  rw [move]
  cases stopped : action (engine.cursor frame) with
  | mk result stop =>
    rw [stopped] at recorded
    cases result with
    | ok a => exact recorded
    | error fault => exact recorded

theorem records_perform (engine : Engine) (frame : Frame) (procedure : Procedure α) :
    engine.Records (engine.perform frame procedure).1 (engine.perform frame procedure).2.2 :=
  records_move (CursorLaw.recording_closed.governs_run_evaluate engine.toWorld frame _ procedure)

section
variable (engine)

theorem records_fetchByte (frame : Frame) :
    engine.Records (engine.fetchByte frame).1 (engine.fetchByte frame).2.2 :=
  records_move CursorLaw.recording_closed.readByte

theorem records_fetchImmediate (frame : Frame) :
    engine.Records (engine.fetchImmediate frame).1 (engine.fetchImmediate frame).2.2 :=
  records_move CursorLaw.recording_closed.readImmediate

theorem recordsOnly_setGlobal (index : Nat) (v : Value) :
    engine.RecordsOnly (engine.setGlobal index v).1 (engine.setGlobal index v).2 := by
  rw [setGlobal]
  split <;> rfl

theorem recordsOnly_setBinding (role : UInt32) (service? : Option UInt32) :
    engine.RecordsOnly (engine.setBinding role service?).1 (engine.setBinding role service?).2 := by
  rw [setBinding]
  split <;> rfl

theorem recordsOnly_openFrame (function : UInt32) (params : Array Value) (fiber : UInt32) :
    engine.RecordsOnly (engine.openFrame function params fiber).1
      (engine.openFrame function params fiber).2 := by
  rw [openFrame]
  split <;> rfl

/-- All operations but one keep the record of the most recent fault. -/
theorem records_apply {operation : HostOperation} (keeps : operation ≠ .takeFault) :
    engine.Records (operation.apply engine).1 (operation.apply engine).2 := by
  cases operation with
  | takeFault => exact absurd rfl keeps
  | setGlobal index v => exact (engine.recordsOnly_setGlobal index v).records
  | bindRole role service => exact (engine.recordsOnly_setBinding role (some service)).records
  | unbindRole role => exact (engine.recordsOnly_setBinding role none).records
  | openFrame function params fiber =>
    exact (engine.recordsOnly_openFrame function params fiber).records.map _
  | fetchByte frame => exact (engine.records_fetchByte frame).map _
  | fetchImmediate frame => exact (engine.records_fetchImmediate frame).map _
  | evalValue frame | evalPair frame | evalUInt32 frame | evalInt32 frame | evalBinary64 frame
  | evalBuffer frame | evalBufferBytes frame | evalStringIndex frame | evalRoleIndex frame
  | evalObjectIndex frame => exact (engine.records_perform frame _).map _
  | fail | setPacket | setNow | setHeap | spawnFiber | killFiber | setFiberStatus
  | setFiberResult => rfl

/-- The operations of a run in order, each with what it came to. -/
def log : Engine → List HostOperation → List (HostOperation × Except Fault Unit)
  | _, [] => []
  | engine, operation :: operations =>
    (operation, (operation.apply engine).1) :: log (operation.apply engine).2 operations

end
end Engine

namespace HostOperation

/-- The operation succeeded and took no fault. -/
def IsQuiet (entry : HostOperation × Except Fault Unit) : Prop :=
  entry.1 ≠ .takeFault ∧ entry.2 = .ok ()

/-- The fault is that of the last operation in the log that failed, and was not taken since. -/
def IsPending (fault : Fault) (log : List (HostOperation × Except Fault Unit)) : Prop :=
  ∃ before operation later, log = before ++ (operation, .error fault) :: later ∧
    ∀ entry ∈ later, IsQuiet entry

variable {fault : Fault} {entry : HostOperation × Except Fault Unit}
  {log : List (HostOperation × Except Fault Unit)}

theorem not_isPending_nil : ¬IsPending fault [] := by
  rintro ⟨before, operation, later, split, -⟩
  cases before <;> cases split

theorem isPending_cons : IsPending fault (entry :: log) ↔
    IsPending fault log ∨ entry.2 = .error fault ∧ ∀ other ∈ log, IsQuiet other := by
  constructor
  · rintro ⟨before, operation, later, split, quiet⟩
    cases before with
    | nil =>
      obtain ⟨rfl, rfl⟩ := List.cons.inj split
      exact .inr ⟨rfl, quiet⟩
    | cons first before =>
      obtain ⟨-, rest⟩ := List.cons.inj split
      exact .inl ⟨before, operation, later, rest, quiet⟩
  · rintro (⟨before, operation, later, rfl, quiet⟩ | ⟨failed, quiet⟩)
    · exact ⟨entry :: before, operation, later, rfl, quiet⟩
    · refine ⟨[], entry.1, log, ?_, quiet⟩
      rw [List.nil_append, ← failed]

end HostOperation

namespace Engine

open HostOperation

/-- What one operation does to the record. -/
theorem apply_lastFault_eq_some_iff {engine : Engine} {operation : HostOperation} {fault : Fault} :
    (operation.apply engine).2.lastFault = some fault ↔
      (operation.apply engine).1 = .error fault ∨
        IsQuiet (operation, (operation.apply engine).1) ∧ engine.lastFault = some fault := by
  by_cases takes : operation = .takeFault
  · subst takes
    simp [apply, takeFault, IsQuiet]
  · have records := engine.records_apply takes
    cases came_to : (operation.apply engine).1 with
    | ok done =>
      rw [came_to] at records
      have kept : (operation.apply engine).2.lastFault = engine.lastFault := records
      simp [kept, IsQuiet, takes]
    | error raised =>
      rw [came_to] at records
      have recorded : (operation.apply engine).2.lastFault = some raised := records
      simp [recorded, IsQuiet]

/-- The record after a run says what the log says, or what it said before a run that left it alone. -/
theorem runAll_lastFault_eq_some_iff {engine : Engine} {operations : List HostOperation}
    {fault : Fault} : (engine.runAll operations).lastFault = some fault ↔
      IsPending fault (engine.log operations) ∨
        (∀ entry ∈ engine.log operations, IsQuiet entry) ∧ engine.lastFault = some fault := by
  induction operations generalizing engine with
  | nil => simp [runAll, log, not_isPending_nil]
  | cons operation operations ih =>
    have run : engine.runAll (operation :: operations) =
        (operation.apply engine).2.runAll operations := rfl
    rw [run, ih, apply_lastFault_eq_some_iff, log, isPending_cons, List.forall_mem_cons]
    constructor
    · rintro (pending | ⟨quiet, failed | ⟨first, old⟩⟩)
      · exact .inl (.inl pending)
      · exact .inl (.inr ⟨failed, quiet⟩)
      · exact .inr ⟨⟨first, quiet⟩, old⟩
    · rintro ((pending | ⟨failed, quiet⟩) | ⟨⟨first, quiet⟩, old⟩)
      · exact .inl pending
      · exact .inr ⟨quiet, .inl failed⟩
      · exact .inr ⟨quiet, .inr ⟨first, old⟩⟩

/-- The record of the most recent fault is right. Every operation that can fail leaves its fault there
if it fails, and leaves the record as it was if it succeeds; the operations on the engine's tables and
the start of a call change nothing else when they fail. So after any run of operations the record holds
a fault exactly if that is the fault of the last operation that failed and no fault was taken since, or
if it was there before the run, and no operation failed or took it. On a new engine nothing was there
before. -/
theorem fault_record :
    (EveryEvaluation fun _ evaluation => ∀ (engine : Engine) (frame : Frame),
      engine.Records (evaluation engine frame).1 (evaluation engine frame).2.2) ∧
    (∀ (engine : Engine) (frame : Frame),
      engine.Records (engine.fetchByte frame).1 (engine.fetchByte frame).2.2 ∧
      engine.Records (engine.fetchImmediate frame).1 (engine.fetchImmediate frame).2.2) ∧
    (∀ (engine : Engine) (index : Nat) (v : Value),
      engine.RecordsOnly (engine.setGlobal index v).1 (engine.setGlobal index v).2) ∧
    (∀ (engine : Engine) (role service : UInt32),
      engine.RecordsOnly (engine.bindRole role service).1 (engine.bindRole role service).2 ∧
      engine.RecordsOnly (engine.unbindRole role).1 (engine.unbindRole role).2) ∧
    (∀ (engine : Engine) (function : UInt32) (params : Array Value) (fiber : UInt32),
      engine.RecordsOnly (engine.openFrame function params fiber).1
        (engine.openFrame function params fiber).2) ∧
    (∀ (engine : Engine) (operations : List HostOperation) (fault : Fault),
      (engine.runAll operations).lastFault = some fault ↔
        IsPending fault (engine.log operations) ∨
          (∀ entry ∈ engine.log operations, IsQuiet entry) ∧ engine.lastFault = some fault) ∧
    (∀ (image : Image) (settings : Settings) (entropy : UInt64) (operations : List HostOperation)
      (fault : Fault),
      ((start image settings entropy).runAll operations).lastFault = some fault ↔
        IsPending fault ((start image settings entropy).log operations)) := by
  refine ⟨.of_perform fun _ procedure engine frame => ?_, fun engine frame => ?_,
    recordsOnly_setGlobal, fun engine role service => ?_, recordsOnly_openFrame,
    fun _ _ _ => runAll_lastFault_eq_some_iff, fun image settings entropy operations fault => ?_⟩
  · exact engine.records_perform frame (procedure engine.toWorld)
  · exact ⟨engine.records_fetchByte frame, engine.records_fetchImmediate frame⟩
  · exact ⟨engine.recordsOnly_setBinding role (some service),
      engine.recordsOnly_setBinding role none⟩
  · have empty : (start image settings entropy).lastFault = none := rfl
    rw [runAll_lastFault_eq_some_iff, empty]
    simp

/-- An undeclared opcode inside of another one, whose fault is taken, and a call of a missing function
before a literal that has a value. -/
theorem fault_record_missing_function :
    let code := Assembler.opcode (.unary .neg) ++ [0x7F, 0x90]
    let engine := start { Image.empty with functions := #[⟨"main", 0, 0, code⟩] } .standard 0
    (engine.evalValue ⟨0, 0, #[], #[], 0⟩).2.2.lastFault = some .invalidOpcode ∧
      (engine.runAll [.evalValue ⟨0, 0, #[], #[], 0⟩, .takeFault, .openFrame 1 #[] 0,
        .evalValue ⟨0, 2, #[], #[], 0⟩]).lastFault = some .functionOutOfRange := by
  intro code engine
  obtain ⟨evaluated, -, -, -, -, -, fresh⟩ := fault_record
  have inner : (engine.evalValue ⟨0, 0, #[], #[], 0⟩).1 = .error .invalidOpcode := rfl
  have recorded := evaluated.value engine ⟨0, 0, #[], #[], 0⟩
  rw [inner] at recorded
  have quiet : IsQuiet (.evalValue ⟨0, 2, #[], #[], 0⟩, .ok ()) := ⟨by rintro ⟨⟩, rfl⟩
  refine ⟨recorded, (fresh _ _ _ _ _).2 ⟨[(.evalValue ⟨0, 0, #[], #[], 0⟩, .error .invalidOpcode),
    (.takeFault, .ok ())], .openFrame 1 #[] 0, [(.evalValue ⟨0, 2, #[], #[], 0⟩, .ok ())], rfl, ?_⟩⟩
  intro entry mem
  rw [List.mem_singleton.1 mem]
  exact quiet

end Engine
end NodeScript
