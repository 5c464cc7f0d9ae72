import NodeScript.Assembler
import NodeScript.Proofs.HostOperation
import NodeScript.Proofs.OperandEvaluation

/-!
# Globals and bindings over whole runs

Whatever else a host does in between, a global holds what was last assigned to it, and a role is bound
to what it was last bound to. The tables keep the sizes that the image gives them, so that an operation
fails exactly where its index is beyond the image's.
-/
namespace NodeScript

namespace HostOperation

/-- The value that the operation assigns to the global. -/
def assigned? (index : Nat) : HostOperation → Option Value
  | setGlobal target v => if target = index then some v.normalized else none
  | _ => none

/-- What the operation binds the role to, which for an unbinding is no service. -/
def rebound? (role : UInt32) : HostOperation → Option (Option UInt32)
  | bindRole target service => if target = role then some (some service) else none
  | unbindRole target => if target = role then some none else none
  | _ => none

/-- What the last of the operations that write something writes. -/
def last? {α : Type} (writes : HostOperation → Option α) (operations : List HostOperation) :
    Option α :=
  operations.reverse.findSome? writes

theorem last?_cons {α : Type} (writes : HostOperation → Option α) (operation : HostOperation)
    (operations : List HostOperation) :
    last? writes (operation :: operations) = (last? writes operations).or (writes operation) := by
  simp [last?, List.findSome?_append]

/-- The value of a global: the normalized value last assigned to it, and undefined before that. -/
def lastAssigned (operations : List HostOperation) (index : Nat) : Value :=
  (last? (assigned? index) operations).getD .undefined

/-- The service of the last binding of the role that was not undone. -/
def lastBound? (operations : List HostOperation) (role : UInt32) : Option UInt32 :=
  (last? (rebound? role) operations).getD none

end HostOperation

open HostOperation

namespace Engine

/-- An entry that each operation leaves alone or replaces by what it writes is after a run what was last
written. -/
theorem runAll_entry {α : Type} (entry : Engine → Option α) (writes : HostOperation → Option α)
    (step : ∀ engine operation, entry (operation.apply engine).2 =
      (entry engine).map fun old => (writes operation).getD old)
    (engine : Engine) (operations : List HostOperation) :
    entry (engine.runAll operations) =
      (entry engine).map fun old => (last? writes operations).getD old := by
  induction operations generalizing engine with
  | nil => exact Option.map_id'.symm
  | cons operation operations ih =>
    have later := ih (operation.apply engine).2
    rw [step, Option.map_map] at later
    rw [runAll, List.foldl_cons, ← runAll, later]
    congr 1
    funext old
    rw [Function.comp_apply, last?_cons]
    cases last? writes operations <;> rfl

theorem getElem?_setIfInBounds_eq_map {α : Type} (entries : Array α) (target index : Nat) (new : α) :
    (entries.setIfInBounds target new)[index]? =
      entries[index]?.map fun old => (if target = index then some new else none).getD old := by
  rw [Array.getElem?_setIfInBounds]
  by_cases same : target = index
  · subst same
    by_cases inside : target < entries.size <;> simp [inside]
  · simp [same]

theorem getElem?_setIfInBounds_toNat {α : Type} (entries : Array α) (target index : UInt32) (new : α) :
    (entries.setIfInBounds target.toNat new)[index.toNat]? =
      entries[index.toNat]?.map fun old => (if target = index then some new else none).getD old := by
  simp only [getElem?_setIfInBounds_eq_map, UInt32.toNat_inj]

section
variable (engine : Engine) (operation : HostOperation)

theorem apply_image : (operation.apply engine).2.image = engine.image := by
  rw [apply_toWorld]
  cases operation <;> rfl

/-- An operation changes a global only by assigning to it, and makes and removes none. -/
theorem apply_global? (index : Nat) : (operation.apply engine).2.global? index =
    (engine.global? index).map fun old => (operation.assigned? index).getD old := by
  rw [global?, apply_toWorld]
  cases operation with
  | setGlobal target v => exact getElem?_setIfInBounds_eq_map _ _ _ _
  | _ => exact Option.map_id'.symm

/-- An operation changes a binding only by binding or unbinding the role, and adds no role. -/
theorem apply_bindings (role : UInt32) :
    (operation.apply engine).2.bindings[role.toNat]? =
      engine.bindings[role.toNat]?.map fun old => (operation.rebound? role).getD old := by
  rw [apply_toWorld]
  cases operation with
  | bindRole target service => exact getElem?_setIfInBounds_toNat _ _ _ _
  | unbindRole target => exact getElem?_setIfInBounds_toNat _ _ _ _
  | _ => exact Option.map_id'.symm

end

variable (image : Image) (settings : Settings) (entropy : UInt64) (operations : List HostOperation)

theorem runAll_image (engine : Engine) : (engine.runAll operations).image = engine.image :=
  runAll_induction (fun before operation kept => (apply_image before operation).trans kept) rfl
    operations

theorem runAll_global? (index : Nat) :
    ((start image settings entropy).runAll operations).global? index =
      if index < image.numGlobals.toNat then some (lastAssigned operations index) else none := by
  have kept := runAll_entry (fun engine => engine.global? index) (assigned? index)
    (fun engine operation => apply_global? engine operation index)
    (start image settings entropy) operations
  have initial : (start image settings entropy).global? index =
      if index < image.numGlobals.toNat then some .undefined else none :=
    Array.getElem?_replicate
  rw [kept, initial]
  split <;> rfl

theorem runAll_bindings (role : UInt32) :
    ((start image settings entropy).runAll operations).bindings[role.toNat]? =
      if role.toNat < image.roles.size then some (lastBound? operations role) else none := by
  have kept := runAll_entry (fun engine => engine.bindings[role.toNat]?) (rebound? role)
    (fun engine operation => apply_bindings engine operation role)
    (start image settings entropy) operations
  have initial : (start image settings entropy).bindings[role.toNat]? =
      if role.toNat < image.roles.size then some none else none :=
    Array.getElem?_replicate
  rw [kept, initial]
  split <;> rfl

theorem runAll_service? (role : UInt32) :
    ((start image settings entropy).runAll operations).service? role =
      if role.toNat < image.roles.size then lastBound? operations role else none := by
  rw [World.service?, runAll_bindings]
  split <;> rfl

theorem setGlobal_fst (engine : Engine) (index : Nat) (v : Value) : (engine.setGlobal index v).1 =
    if (engine.global? index).isSome then .ok () else .error .globalOutOfRange := by
  rw [setGlobal]
  split <;> simp_all [global?]

theorem setBinding_fst (engine : Engine) (role : UInt32) (service? : Option UInt32) :
    (engine.setBinding role service?).1 =
      if engine.bindings[role.toNat]?.isSome then .ok () else .error .roleOutOfRange := by
  rw [setBinding]
  split <;> simp_all

theorem runAll_setGlobal_fst (index : Nat) (v : Value) :
    (((start image settings entropy).runAll operations).setGlobal index v).1 =
      if index < image.numGlobals.toNat then .ok () else .error .globalOutOfRange := by
  rw [setGlobal_fst, runAll_global?]
  split <;> rfl

theorem runAll_setBinding_fst (role : UInt32) (service? : Option UInt32) :
    (((start image settings entropy).runAll operations).setBinding role service?).1 =
      if role.toNat < image.roles.size then .ok () else .error .roleOutOfRange := by
  rw [setBinding_fst, runAll_bindings]
  split <;> rfl

/-- On an expression that evaluates to the handle of a role, the question whether it is connected fails
for a role that the image does not have. -/
theorem AppliesTo.roleIsConnected {engine : Engine} {frame : Frame} {role : UInt32}
    (applies : engine.AppliesTo frame .roleIsConnected (.handle .role role)) :
    (engine.evalValue frame).1 =
      if role.toNat < engine.image.roles.size then .ok (.bool (engine.isBound role))
      else .error .roleOutOfRange := by
  refine applies.evalValue_fst_eq rfl ?_
  change (Procedure.checkRole engine.toWorld role >>= fun index =>
    Procedure.done (Value.bool (engine.isBound index))) = _
  rw [Procedure.checkRole]
  split <;> rfl

theorem AppliesTo.roleIsConnected_runAll {frame : Frame} {role : UInt32}
    (applies : ((start image settings entropy).runAll operations).AppliesTo frame .roleIsConnected
      (.handle .role role)) :
    (((start image settings entropy).runAll operations).evalValue frame).1 =
      if role.toNat < image.roles.size then .ok (.bool (lastBound? operations role).isSome)
      else .error .roleOutOfRange := by
  rw [applies.roleIsConnected, runAll_image, World.isBound, runAll_service?]
  change (if role.toNat < image.roles.size then _ else _) = _
  split <;> rfl

/-- Globals and bindings are maps from the indices of the image's tables, over every run. A global
holds what was last assigned to it and a role is bound to what it was last bound to. Assigning, binding
and unbinding fail exactly beyond the image's tables. Whether a role is connected is whether it is
bound at that moment. -/
theorem globals_and_bindings (image : Image) (settings : Settings) (entropy : UInt64)
    (operations : List HostOperation) :
    let engine := (start image settings entropy).runAll operations
    (∀ index, engine.global? index =
      if index < image.numGlobals.toNat then some (lastAssigned operations index) else none) ∧
    (∀ role, engine.service? role =
      if role.toNat < image.roles.size then lastBound? operations role else none) ∧
    (∀ index v, (engine.setGlobal index v).1 =
      if index < image.numGlobals.toNat then .ok () else .error .globalOutOfRange) ∧
    (∀ role service, (engine.bindRole role service).1 =
      if role.toNat < image.roles.size then .ok () else .error .roleOutOfRange) ∧
    (∀ role, (engine.unbindRole role).1 =
      if role.toNat < image.roles.size then .ok () else .error .roleOutOfRange) ∧
    (∀ frame role, engine.AppliesTo frame .roleIsConnected (.handle .role role) →
      (engine.evalValue frame).1 =
        if role.toNat < image.roles.size then .ok (.bool (lastBound? operations role).isSome)
        else .error .roleOutOfRange) :=
  ⟨runAll_global? image settings entropy operations,
    runAll_service? image settings entropy operations,
    runAll_setGlobal_fst image settings entropy operations,
    fun role service => runAll_setBinding_fst image settings entropy operations role (some service),
    fun role => runAll_setBinding_fst image settings entropy operations role none,
    fun _ _ => AppliesTo.roleIsConnected_runAll image settings entropy operations⟩

/-- A role that is bound, after other operations, is connected, and one that the image does not have
cannot be asked about. -/
theorem globals_and_bindings_bound :
    let code := Assembler.opcode .roleIsConnected ++ Assembler.opcode .loadGlobal ++ [0]
    let image := { Image.empty with
      numGlobals := 1
      roles := #[⟨"lamp", 0⟩]
      functions := #[⟨"main", 0, 0, code⟩] }
    let operations (role : UInt32) : List HostOperation :=
      [.bindRole 0 5, .bindRole 1 6, .setGlobal 0 (.handle .role role), .takeFault]
    let result (role : UInt32) :=
      (((start image .standard 0).runAll (operations role)).evalValue ⟨0, 0, #[], #[], 0⟩).1
    result 0 = .ok (.bool true) ∧ result 1 = .error .roleOutOfRange := by
  intro code image operations result
  have complete : ExpressionAt code 1 3 1 :=
    ⟨Nat.le_refl 3, .one_opcode rfl ⟨0, [], rfl, rfl⟩ (.none [])⟩
  have shallow : 0 + 1 < Settings.standard.maxDepth := by decide
  have applies (role : UInt32) : ((start image .standard 0).runAll (operations role)).AppliesTo
      ⟨0, 0, #[], #[], 0⟩ .roleIsConnected (.handle .role role) :=
    ⟨rfl, rfl, 3, 1, complete, shallow⟩
  have asked (role : UInt32) := (globals_and_bindings image .standard 0
    (operations role)).2.2.2.2.2 ⟨0, 0, #[], #[], 0⟩ role (applies role)
  exact ⟨asked 0, asked 1⟩

end Engine
end NodeScript
