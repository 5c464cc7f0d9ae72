import NodeScript.Assembler
import NodeScript.Proofs.FiberCensus
import NodeScript.Proofs.OperandEvaluation

/-!
# Fibers over whole runs

The opcodes find fibers by position and calls run on fibers by identifier. Over every run that starts
no more fibers than there are identifiers the two agree, and the table is a map from the identifiers of
the fibers that are live.
-/
namespace NodeScript

namespace HostOperation

/-- The identifier was given to a fiber that was not taken out since. -/
def IsLive (operations : List HostOperation) (id : UInt32) : Prop :=
  ∃ before later, operations = before ++ spawnFiber :: later ∧
    id = UInt32.ofNat (before.countP startsFiber) ∧ killFiber id ∉ later

theorem isLive_concat {operations : List HostOperation} {operation : HostOperation} {id : UInt32} :
    IsLive (operations ++ [operation]) id ↔ IsLive operations id ∧ operation ≠ killFiber id ∨
      operation = spawnFiber ∧ id = UInt32.ofNat (operations.countP startsFiber) := by
  constructor
  · rintro ⟨before, later, split, number, survives⟩
    rcases List.eq_nil_or_concat later with rfl | ⟨later, last, rfl⟩
    · obtain ⟨rfl, same⟩ := List.append_inj' split rfl
      exact .inr ⟨(List.cons.inj same).1, number⟩
    · rw [List.concat_eq_append] at split survives
      rw [← List.cons_append, ← List.append_assoc] at split
      obtain ⟨rfl, same⟩ := List.append_inj' split rfl
      obtain ⟨rfl, -⟩ := List.cons.inj same
      rw [List.mem_append, List.mem_singleton, not_or] at survives
      exact .inl ⟨⟨before, later, rfl, number, survives.1⟩, fun kill => survives.2 kill.symm⟩
  · rintro (⟨⟨before, later, rfl, number, survives⟩, ne⟩ | ⟨rfl, number⟩)
    · refine ⟨before, later ++ [operation], by simp, number, ?_⟩
      rw [List.mem_append, List.mem_singleton, not_or]
      exact ⟨survives, ne.symm⟩
    · exact ⟨operations, [], rfl, number, List.not_mem_nil⟩

end HostOperation

open HostOperation

namespace Engine

section
variable {engine : Engine} {frame : Frame}

/-- On an expression for a position, the opcode for a handle finds the fiber there. -/
theorem AppliesTo.fiberHandle {v : Value} (applies : engine.AppliesTo frame .fiberHandle v)
    (position : 0 ≤ v.toInt32) : (engine.evalValue frame).1 =
      .ok (((engine.fibers.at? v.toInt32.toNatClampNeg).map Fiber.handle).getD .undefined) := by
  refine applies.evalValue_fst_eq rfl ?_
  change (if v.toInt32 < 0 then _ else _) = _
  rw [if_neg (Int32.not_lt.2 position)]
  cases engine.fibers.at? v.toInt32.toNatClampNeg <;> rfl

/-- A call on a fiber of the table sees what the last call on it returned. -/
theorem evalValue_resultValue {fiber : Fiber}
    (code : (engine.functionCode frame)[frame.pc]? = some Opcode.resultValue.toByte)
    (room : engine.depth < engine.settings.maxDepth)
    (found : engine.fibers.find? frame.fiber = some fiber) :
    (engine.evalValue frame).1 = .ok fiber.result.normalized := by
  refine evalValue_fst_of_settled code room ?_
  change Procedure.done (Handler.resultValue engine.toWorld frame) = _
  rw [Handler.resultValue, found]
  rfl

end

/-- The handle that is made for a position names the fiber whose result the calls on it see. -/
def HandlesNameFibers (engine : Engine) : Prop :=
  ∀ (frame : Frame) (v : Value), engine.AppliesTo frame .fiberHandle v → 0 ≤ v.toInt32 →
    ∀ fiber, engine.fibers.at? v.toInt32.toNatClampNeg = some fiber →
      (engine.evalValue frame).1 = .ok (.handle .fiber fiber.id) ∧
      ∀ call : Frame, call.fiber = fiber.id →
        (engine.functionCode call)[call.pc]? = some Opcode.resultValue.toByte →
        engine.depth < engine.settings.maxDepth →
        (engine.evalValue call).1 = .ok fiber.result.normalized

theorem handlesNameFibers {engine : Engine} (isMap : engine.fibers.IsMap) :
    engine.HandlesNameFibers := by
  intro frame v applies position fiber there
  constructor
  · rw [applies.fiberHandle position, there]
    rfl
  · intro call same code room
    refine evalValue_resultValue code room ?_
    rw [same]
    exact isMap.find_at there

/-- Taking out the fiber ends the life of an identifier, and starting a fiber begins one. -/
theorem mem_ids_apply {engine : Engine} (distinct : engine.fibers.ids.Nodup)
    (operation : HostOperation) (id : UInt32) : id ∈ (operation.apply engine).2.fibers.ids ↔
      id ∈ engine.fibers.ids ∧ operation ≠ killFiber id ∨
        operation = spawnFiber ∧ id = engine.fibers.spawn.1 := by
  rw [apply_toWorld]
  cases operation with
  | spawnFiber => simp [onWorld, FiberTable.ids_spawn]
  | killFiber target =>
    rw [onWorld, FiberTable.ids_kill, distinct.mem_erase_iff]
    simp [and_comm, eq_comm]
  | setFiberStatus target status => simp [onWorld, FiberTable.ids_setStatus]
  | setFiberResult target result => simp [onWorld, FiberTable.ids_setResult]
  | _ => simp [onWorld]

variable (image : Image) (settings : Settings) (entropy : UInt64) (operations : List HostOperation)

/-- The fibers in the table are those that were started and not taken out. -/
theorem mem_ids_runAll (few : operations.countP startsFiber ≤ idCount) (id : UInt32) :
    id ∈ ((start image settings entropy).runAll operations).fibers.ids ↔ IsLive operations id := by
  induction operations using List.reverseRecOn with
  | nil =>
    refine ⟨by rintro ⟨⟩, ?_⟩
    rintro ⟨before, later, split, -⟩
    exact absurd split.symm (by simp)
  | append_singleton operations operation ih =>
    have fewer : operations.countP startsFiber ≤ idCount := by
      rw [List.countP_append] at few
      omega
    have distinct := (runAll_increasing image settings entropy operations fewer).imp UInt32.ne_of_lt
    rw [runAll_concat, mem_ids_apply distinct, isLive_concat, ih fewer, runAll_spawn]

/-- A run that has identifiers left gives the next fiber one that it gave to no fiber before. -/
theorem runAll_spawn_ne (few : operations.countP startsFiber < idCount)
    {before later : List HostOperation} (split : operations = before ++ spawnFiber :: later) :
    ((start image settings entropy).runAll before).fibers.spawn.1 ≠
      ((start image settings entropy).runAll operations).fibers.spawn.1 := by
  have fewer : before.countP startsFiber < operations.countP startsFiber := by
    rw [split, List.countP_append, List.countP_cons_of_pos rfl]
    omega
  rw [runAll_spawn, runAll_spawn, Ne, UInt32.ofNat_eq_iff_mod_eq_toNat, UInt32.toNat_ofNat']
  unfold idCount at few
  omega

/-- Over every run that starts at most as many fibers as there are identifiers the table is a map from
the identifiers of the live fibers, in the order in which they were started: positions and identifiers
agree, also for the opcodes, and each operation concerns one fiber. The next fiber, if the identifiers
last for it, gets one that was never given before. -/
theorem fibers_refine_map (few : operations.countP startsFiber ≤ idCount) :
    let engine := (start image settings entropy).runAll operations
    engine.fibers.IsMap ∧ engine.HandlesNameFibers ∧
    (∀ id, id ∈ engine.fibers.ids ↔ IsLive operations id) ∧
    (operations.countP startsFiber < idCount → engine.fibers.find? engine.fibers.spawn.1 = none ∧
      ∀ before later, operations = before ++ spawnFiber :: later →
        ((start image settings entropy).runAll before).fibers.spawn.1 ≠ engine.fibers.spawn.1) := by
  intro engine
  have isMap : engine.fibers.IsMap :=
    FiberTable.isMap_of_increasing (runAll_increasing image settings entropy operations few)
  have live := mem_ids_runAll image settings entropy operations few
  refine ⟨isMap, handlesNameFibers isMap, live, fun left => ⟨?_, fun _ _ =>
    runAll_spawn_ne image settings entropy operations left⟩⟩
  rw [FiberTable.find?_eq_none_iff, live]
  rintro ⟨before, later, split, same, -⟩
  rw [← runAll_spawn image settings entropy before] at same
  exact runAll_spawn_ne image settings entropy operations left split same.symm

/-- After the second of three fibers is gone, a handle for the second position names the third fiber,
and calls on that one see its result. -/
theorem fibers_refine_map_second :
    let code := Assembler.opcode .fiberHandle ++ [0x91] ++ Assembler.opcode .resultValue
    let image := { Image.empty with functions := #[⟨"main", 0, 0, code⟩] }
    let operations : List HostOperation := [.spawnFiber, .spawnFiber, .spawnFiber, .killFiber 1,
      .setFiberResult 2 (.int 5), .setFiberStatus 0 .running]
    let engine := (start image .standard 0).runAll operations
    engine.fibers.ids.Pairwise (· < ·) ∧
      (engine.evalValue ⟨0, 0, #[], #[], 0⟩).1 = .ok (.handle .fiber 2) ∧
      (engine.evalValue ⟨0, 2, #[], #[], 2⟩).1 = .ok (.int 5) := by
  intro code image operations engine
  obtain ⟨isMap, handles, -⟩ := fibers_refine_map image .standard 0 operations (by decide)
  have complete : ExpressionAt code 1 2 0 := ⟨by decide, .one_compact (by decide)⟩
  have shallow : 0 + 0 < Settings.standard.maxDepth := by decide
  obtain ⟨handle, seen⟩ := handles ⟨0, 0, #[], #[], 0⟩ (.int 1) ⟨rfl, rfl, 2, 0, complete, shallow⟩
    (by decide) ⟨2, .suspended, .int 5⟩ rfl
  exact ⟨isMap.increasing, handle, seen ⟨0, 2, #[], #[], 2⟩ rfl rfl shallow⟩

end Engine
end NodeScript
