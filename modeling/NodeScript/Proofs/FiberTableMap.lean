import NodeScript.Fiber
import Mathlib.Data.List.Nodup

/-!
# The table of fibers as a map

In a table whose identifiers increase from one fiber to the next, positions and identifiers name the
same fibers, and an operation on an identifier concerns the one fiber that has it.
-/
namespace NodeScript
namespace FiberTable

section
variable (table : FiberTable) (id : UInt32)

/-- The identifiers in the order of the table. -/
def ids : List UInt32 := table.fibers.map Fiber.id

theorem getElem?_ids (position : Nat) : table.ids[position]? = (table.at? position).map Fiber.id :=
  List.getElem?_map

theorem find?_eq_none_iff : table.find? id = none ↔ id ∉ table.ids := by
  simp [find?, ids]

theorem ids_spawn : table.spawn.2.ids = table.ids ++ [table.spawn.1] := by
  simp [spawn, ids]

theorem ids_kill : (table.kill id).2.ids = table.ids.erase id := by
  rw [List.erase_eq_eraseP', ids, ids, List.eraseP_map]
  rfl

/-- An update that keeps identifiers keeps them all, in the same order. -/
theorem ids_modify {change : Fiber → Fiber} (keeps : ∀ fiber, (change fiber).id = fiber.id) :
    (table.modify id change).ids = table.ids := by
  refine List.ext_getElem? fun position => ?_
  rw [getElem?_ids, getElem?_ids, at?, at?, modify, List.getElem?_modify]
  cases table.fibers[position]? with
  | none => rfl
  | some fiber =>
    simp only [Option.map_eq_map, Option.map_some]
    split
    · rw [keeps]
    · rfl

theorem ids_setStatus (status : FiberStatus) : (table.setStatus id status).ids = table.ids :=
  table.ids_modify id fun _ => rfl

theorem ids_setResult (result : Value) : (table.setResult id result).ids = table.ids :=
  table.ids_modify id fun _ => rfl

/-- A new fiber comes behind all others. -/
theorem at?_spawn (position : Nat) : table.spawn.2.at? position =
    if position = table.fibers.length then some ⟨table.spawn.1, .suspended, .undefined⟩
    else table.at? position := by
  rw [at?, at?, spawn]
  rcases Nat.lt_trichotomy position table.fibers.length with before | rfl | behind
  · rw [List.getElem?_append_left before, if_neg (Nat.ne_of_lt before)]
  · simp
  · rw [if_neg (Nat.ne_of_gt behind), List.getElem?_eq_none (Nat.le_of_lt behind)]
    refine List.getElem?_eq_none ?_
    rw [List.length_append]
    exact behind

/-- Taking out a fiber does not change what is found under other identifiers. -/
theorem find?_kill_of_ne {other : UInt32} (ne : other ≠ id) :
    (table.kill id).2.find? other = table.find? other := by
  simp only [find?, kill]
  induction table.fibers with
  | nil => rfl
  | cons fiber fibers ih =>
    by_cases same : fiber.id = id
    · have differs : ¬fiber.id = other := fun equal => ne (equal.symm.trans same)
      simp [same, ne.symm]
    · simp [same, List.find?_cons, ih]

theorem kill_of_find?_eq_none (absent : table.find? id = none) : table.kill id = (none, table) := by
  have unchanged : (table.fibers.eraseP fun fiber => fiber.id == id) = table.fibers :=
    List.eraseP_of_forall_not (List.find?_eq_none.1 absent)
  rw [kill, absent, unchanged]
  rfl

end

section
variable {table : FiberTable} {position : Nat} {fiber : Fiber}

/-- The search for an identifier stops at the fiber that has it. -/
theorem findIdx?_of_at? (distinct : table.ids.Nodup) (there : table.at? position = some fiber) :
    table.fibers.findIdx? (fun other => other.id == fiber.id) = some position := by
  obtain ⟨inside, rfl⟩ := List.getElem?_eq_some_iff.1 there
  refine List.findIdx?_eq_some_iff_getElem.2 ⟨inside, beq_self_eq_true _, fun earlier before same => ?_⟩
  have differs := List.pairwise_iff_getElem.1 distinct earlier position
    (by simpa [ids] using Nat.lt_trans before inside) (by simpa [ids] using inside) before
  simp only [ids, List.getElem_map] at differs
  exact differs (beq_iff_eq.1 same)

theorem find?_of_at? (distinct : table.ids.Nodup) (there : table.at? position = some fiber) :
    table.find? fiber.id = some fiber := by
  rw [find?, List.find?_eq_bind_findIdx?_getElem?, findIdx?_of_at? distinct there]
  exact there

theorem kill_of_at? (distinct : table.ids.Nodup) (there : table.at? position = some fiber) :
    table.kill fiber.id = (some { fiber with status := .dead },
      { table with fibers := table.fibers.eraseIdx position }) := by
  rw [kill, find?_of_at? distinct there, List.eraseP_eq_eraseIdx, findIdx?_of_at? distinct there]
  rfl

theorem at?_modify (distinct : table.ids.Nodup) (id : UInt32) (change : Fiber → Fiber)
    (position : Nat) : (table.modify id change).at? position =
      (table.at? position).map fun fiber => if fiber.id = id then change fiber else fiber := by
  rw [at?, modify, List.getElem?_modify, Option.map_eq_map, ← at?]
  refine Option.map_congr fun fiber there => ?_
  have inside := (List.getElem?_eq_some_iff.1 there).1
  by_cases same : fiber.id = id
  · subst same
    have first := findIdx?_of_at? distinct there
    rw [List.findIdx?_eq_some_iff_findIdx_eq] at first
    rw [if_pos first.2, if_pos rfl]
  · rw [if_neg same, if_neg]
    rintro rfl
    obtain ⟨_, rfl⟩ := List.getElem?_eq_some_iff.1 there
    exact same (beq_iff_eq.1 (@List.findIdx_getElem _ _ _ inside))

end

/-- Positions and identifiers name the same fibers, and operations on an identifier concern the fiber
that has it and no other. -/
structure IsMap (table : FiberTable) : Prop where
  /-- Identifiers are distinct and increase in the order of the table. -/
  increasing : table.ids.Pairwise (· < ·)
  find_at : ∀ {position : Nat} {fiber : Fiber}, table.at? position = some fiber →
    table.find? fiber.id = some fiber
  /-- A fiber comes out dead and otherwise as it was. -/
  kill_answer : ∀ {position : Nat} {fiber : Fiber}, table.at? position = some fiber →
    (table.kill fiber.id).1 = some { fiber with status := .dead }
  /-- The fibers in front of the one that goes keep their positions, and those behind it move up. -/
  kill_at : ∀ {position : Nat} {fiber : Fiber}, table.at? position = some fiber → ∀ other : Nat,
    (table.kill fiber.id).2.at? other =
      if other < position then table.at? other else table.at? (other + 1)
  kill_find : ∀ id other : UInt32, (table.kill id).2.find? other =
    if other = id then none else table.find? other
  kill_absent : ∀ {id : UInt32}, table.find? id = none → table.kill id = (none, table)
  setStatus_at : ∀ (id : UInt32) (status : FiberStatus) (position : Nat),
    (table.setStatus id status).at? position = (table.at? position).map fun fiber =>
      if fiber.id = id then { fiber with status } else fiber
  setResult_at : ∀ (id : UInt32) (result : Value) (position : Nat),
    (table.setResult id result).at? position = (table.at? position).map fun fiber =>
      if fiber.id = id then { fiber with result } else fiber
  spawn_at : ∀ position : Nat, table.spawn.2.at? position =
    if position = table.fibers.length then some ⟨table.spawn.1, .suspended, .undefined⟩
    else table.at? position

/-- Nothing more than the order of the identifiers makes a table a map. -/
theorem isMap_of_increasing {table : FiberTable} (increasing : table.ids.Pairwise (· < ·)) :
    table.IsMap := by
  have distinct : table.ids.Nodup := increasing.imp UInt32.ne_of_lt
  refine ⟨increasing, find?_of_at? distinct, ?_, ?_, ?_, table.kill_of_find?_eq_none _,
    fun id status => at?_modify distinct id _, fun id result => at?_modify distinct id _,
    table.at?_spawn⟩
  · intro position fiber there
    rw [kill_of_at? distinct there]
  · intro position fiber there other
    rw [kill_of_at? distinct there]
    exact List.getElem?_eraseIdx
  · intro id other
    split
    case isTrue same =>
      rw [same, find?_eq_none_iff, ids_kill]
      exact distinct.not_mem_erase
    case isFalse ne => exact table.find?_kill_of_ne id ne

end FiberTable
end NodeScript
