import NodeScript.Proofs.FiberTableMap
import NodeScript.Proofs.HostOperation
import Mathlib.Data.List.Induction

/-!
# Which fibers are live

The fibers that a run starts are numbered from zero on, and the numbers do not wrap around. A fiber's
identifier is its number modulo 2³². So identifiers are distinct as long as no two live fibers are 2³²
numbers apart, and beyond that they need not be.
-/
namespace NodeScript

/-- How many identifiers there are. -/
abbrev idCount : Nat := 0x100000000

namespace HostOperation

def startsFiber : HostOperation → Bool
  | spawnFiber => true
  | _ => false

/-- How many fibers were started, and the numbers of those that are live. -/
structure Census where
  started : Nat
  live : List Nat

/-- A fiber that is taken out is the first of the live ones whose number has the identifier. -/
def Census.after (census : Census) : HostOperation → Census
  | spawnFiber => ⟨census.started + 1, census.live ++ [census.started]⟩
  | killFiber id => { census with live := census.live.eraseP fun number => UInt32.ofNat number == id }
  | _ => census

def census (operations : List HostOperation) : Census := operations.foldl Census.after ⟨0, []⟩

theorem census_concat (operations : List HostOperation) (operation : HostOperation) :
    census (operations ++ [operation]) = (census operations).after operation := by
  rw [census, List.foldl_concat, census]

theorem census_started (operations : List HostOperation) :
    (census operations).started = operations.countP startsFiber := by
  induction operations using List.reverseRecOn with
  | nil => rfl
  | append_singleton operations operation ih =>
    rw [census_concat, List.countP_append, ← ih]
    cases operation <;> rfl

end HostOperation

open HostOperation

/-- The table holds the live fibers of the census in the order in which they were started. -/
structure FiberTable.Counted (table : FiberTable) (census : Census) : Prop where
  ids : table.ids = census.live.map UInt32.ofNat
  nextId : table.spawn.1 = UInt32.ofNat census.started
  increasing : census.live.Pairwise (· < ·)
  below : ∀ number ∈ census.live, number < census.started

namespace FiberTable.Counted

variable {table : FiberTable} {census : Census} (counted : table.Counted census)
include counted

theorem spawn : table.spawn.2.Counted (census.after spawnFiber) where
  ids := by
    rw [ids_spawn, counted.ids, counted.nextId, Census.after, List.map_append]
    rfl
  nextId := (congrArg (· + 1) counted.nextId).trans (UInt32.ofNat_add census.started 1).symm
  increasing := by
    rw [Census.after, List.pairwise_append]
    exact ⟨counted.increasing, List.pairwise_singleton _ _, by simpa using counted.below⟩
  below number mem := by
    rcases List.mem_append.1 mem with mem | mem
    · exact Nat.lt_succ_of_lt (counted.below number mem)
    · rw [List.mem_singleton.1 mem]
      exact Nat.lt_succ_self _

theorem kill (id : UInt32) : (table.kill id).2.Counted (census.after (killFiber id)) where
  ids := by
    rw [ids_kill, counted.ids, List.erase_eq_eraseP', List.eraseP_map]
    rfl
  nextId := counted.nextId
  increasing := counted.increasing.eraseP _
  below number mem := counted.below number (List.mem_of_mem_eraseP mem)

/-- The identifier that is due belongs to a live fiber exactly if a multiple of 2³² fibers were started
since that one. -/
theorem nextId_mem_ids_iff : table.spawn.1 ∈ table.ids ↔
    ∃ number ∈ census.live, idCount ∣ census.started - number := by
  rw [counted.ids, counted.nextId, List.mem_map]
  refine exists_congr fun number => and_congr_right fun mem => ?_
  have before := counted.below number mem
  rw [UInt32.ofNat_eq_iff_mod_eq_toNat, UInt32.toNat_ofNat', idCount]
  omega

/-- As long as there are identifiers enough they increase. -/
theorem increasing_ids (few : census.started ≤ idCount) : table.ids.Pairwise (· < ·) := by
  rw [counted.ids, List.pairwise_map]
  refine counted.increasing.imp_of_mem fun {number other} mem mem' lt => ?_
  have before := counted.below number mem
  have before' := counted.below other mem'
  rw [UInt32.lt_iff_toNat_lt, UInt32.toNat_ofNat', UInt32.toNat_ofNat']
  unfold idCount at few
  omega

end FiberTable.Counted

namespace Engine

/-- Every operation keeps the count. -/
theorem counted_apply {engine : Engine} {census : Census} (counted : engine.fibers.Counted census)
    (operation : HostOperation) :
    (operation.apply engine).2.fibers.Counted (census.after operation) := by
  rw [apply_toWorld]
  cases operation with
  | spawnFiber => exact counted.spawn
  | killFiber id => exact counted.kill id
  | setFiberStatus id status =>
    exact { counted with ids := (engine.fibers.ids_setStatus id status).trans counted.ids }
  | setFiberResult id result =>
    exact { counted with ids := (engine.fibers.ids_setResult id result).trans counted.ids }
  | _ => exact counted

variable (image : Image) (settings : Settings) (entropy : UInt64) (operations : List HostOperation)

/-- After every run the table holds the live fibers of the census. -/
theorem counted_runAll :
    ((start image settings entropy).runAll operations).fibers.Counted (census operations) := by
  induction operations using List.reverseRecOn with
  | nil => exact ⟨rfl, rfl, List.Pairwise.nil, by rintro _ ⟨⟩⟩
  | append_singleton operations operation ih =>
    rw [runAll_concat, census_concat]
    exact counted_apply ih operation

theorem runAll_spawn : ((start image settings entropy).runAll operations).fibers.spawn.1 =
    UInt32.ofNat (operations.countP startsFiber) := by
  rw [(counted_runAll image settings entropy operations).nextId, census_started]

/-- As long as there are identifiers enough they increase. -/
theorem runAll_increasing (few : operations.countP startsFiber ≤ idCount) :
    ((start image settings entropy).runAll operations).fibers.ids.Pairwise (· < ·) :=
  (counted_runAll image settings entropy operations).increasing_ids
    (Nat.le_trans (Nat.le_of_eq (census_started operations)) few)

/-- Over runs of any length, the identifier of the next fiber belongs to a live fiber exactly if there
is one since whose start a multiple of 2³² fibers were started. -/
theorem spawn_live_iff (image : Image) (settings : Settings) (entropy : UInt64)
    (operations : List HostOperation) :
    let engine := (start image settings entropy).runAll operations
    engine.fibers.find? engine.fibers.spawn.1 ≠ none ↔
      ∃ number ∈ (census operations).live, idCount ∣ operations.countP startsFiber - number := by
  intro engine
  rw [Ne, FiberTable.find?_eq_none_iff, Decidable.not_not, ← census_started]
  exact (counted_runAll image settings entropy operations).nextId_mem_ids_iff

end Engine

/-- A fiber that comes and goes leaves only a trace in the next identifier. -/
theorem FiberTable.spawn_kill {fiber : Fiber} {id : UInt32} (other : fiber.id ≠ id) :
    ((⟨[fiber], id⟩ : FiberTable).spawn.2.kill id).2 = ⟨[fiber], id + 1⟩ := by
  simp [spawn, kill, other]

/-- Starts fibers one at a time and takes each out before the next, after one that was started before. -/
def HostOperation.churn (count : Nat) : List HostOperation :=
  (List.range count).flatMap fun number => [spawnFiber, killFiber (UInt32.ofNat (number + 1))]

namespace Engine

variable (image : Image) (settings : Settings) (entropy : UInt64)

/-- With one fiber that stays live, starting others and taking them out at once comes to an end of the
identifiers. -/
theorem runAll_churn {count : Nat} (few : count < idCount) :
    ((start image settings entropy).runAll (spawnFiber :: churn count)).fibers =
      ⟨[⟨0, .suspended, .undefined⟩], UInt32.ofNat (count + 1)⟩ := by
  induction count with
  | zero => rfl
  | succ count ih =>
    have others : (0 : UInt32) ≠ UInt32.ofNat (count + 1) := by
      intro same
      have number := (UInt32.ofNat_eq_iff_mod_eq_toNat _ _).1 same.symm
      unfold idCount at few
      rw [UInt32.toNat_zero] at number
      omega
    have longer : spawnFiber :: churn (count + 1) = spawnFiber :: churn count ++ [spawnFiber] ++
        [killFiber (UInt32.ofNat (count + 1))] := by
      simp [churn, List.range_succ]
    rw [longer, runAll_concat, runAll_concat, apply_toWorld, apply_toWorld, onWorld, onWorld,
      ih (Nat.lt_of_succ_lt few), FiberTable.spawn_kill others, UInt32.ofNat_add (count + 1)]
    rfl

/-- The first fiber is live and its identifier is due again. -/
theorem spawn_shares_id : ((start Image.empty .standard 0).runAll
      (spawnFiber :: churn 0xFFFFFFFF)).fibers.find?
    ((start Image.empty .standard 0).runAll (spawnFiber :: churn 0xFFFFFFFF)).fibers.spawn.1 =
      some ⟨0, .suspended, .undefined⟩ := by
  rw [runAll_churn Image.empty .standard 0 (by decide)]
  rfl

end Engine
end NodeScript
