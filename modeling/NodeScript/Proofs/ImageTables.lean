import NodeScript.Proofs.RoleIndex
import Mathlib.Order.Bounds.Basic

/-!
# The tables of an image

Building only appends, and does all of a step or nothing of it. An entry that went in can be had from
the image at the index that was handed out for it, whatever went in later, an entry that was refused
leaves no trace, and functions are found by name at the first index that was handed out for the name.
-/
namespace NodeScript
namespace Image

/-- The image answers with the entry at the index. Floats come as normalized values. -/
def Holds (image : Image) (index : UInt32) : ImageEntry → Prop
  | .string bytes => image.string? index = some bytes
  | .float number => image.float? index = some (Value.double number).normalized
  | .role role => image.role? index = some role
  | .function function => image.function? index = some function

/-- The image has no answer at the index of the table. -/
def Lacks (image : Image) (index : UInt32) : ImageTable → Prop
  | .string => image.string? index = none
  | .float => image.float? index = none
  | .role => image.role? index = none
  | .function => image.function? index = none

variable {image : Image} {index : UInt32} {steps : List BuildStep}

theorem holds_of_getElem? {entry : ImageEntry}
    (there : (image.entries entry.table)[index.toNat]? = some entry) : image.Holds index entry := by
  cases entry <;> simp_all [entries, ImageEntry.table, Holds, string?, float?, role?, function?]
  rfl

theorem lacks_of_size_le {table : ImageTable} (beyond : image.size table ≤ index.toNat) :
    image.Lacks index table := by
  cases table <;> simp_all [size, Lacks, string?, float?, role?, function?]

theorem addedAt_function_iff {function : Function} :
    AddedAt steps (.function function) index ↔ (build steps).function? index = some function := by
  rw [addedAt_iff, function?]
  simp [entries, ImageEntry.table]

/-- The indices that were handed out for functions of the name. -/
def functionIndices (steps : List BuildStep) (name : String) : Set UInt32 :=
  {index | ∃ function, AddedAt steps (.function function) index ∧ function.name = name}

theorem mem_functionIndices_iff {name : String} : index ∈ functionIndices steps name ↔
    ∃ inside : index.toNat < (build steps).functions.size,
      (build steps).functions[index.toNat].name = name := by
  constructor
  · rintro ⟨function, added, named⟩
    obtain ⟨inside, rfl⟩ := Array.getElem?_eq_some_iff.1 (addedAt_function_iff.1 added)
    exact ⟨inside, named⟩
  · rintro ⟨inside, named⟩
    exact ⟨_, addedAt_function_iff.2 (Array.getElem?_eq_getElem inside), named⟩

theorem toNat_ofNat_of_lt_functions {position : Nat}
    (inside : position < (build steps).functions.size) : (UInt32.ofNat position).toNat = position :=
  toNat_ofNat_of_lt_tableLimit (Nat.lt_of_lt_of_le inside (size_le steps .function))

theorem ofNat_mem_functionIndices {name : String} {position : Nat}
    (inside : position < (build steps).functions.size)
    (named : (build steps).functions[position].name = name) :
    UInt32.ofNat position ∈ functionIndices steps name := by
  rw [mem_functionIndices_iff]
  simp only [toNat_ofNat_of_lt_functions inside]
  exact ⟨inside, named⟩

/-- The first function of the name is found. -/
theorem functionByName?_eq_some_iff {name : String} :
    (build steps).functionByName? name = some index ↔
      IsLeast (functionIndices steps name) index := by
  rw [functionByName?, Option.map_eq_some_iff]
  constructor
  · rintro ⟨position, found, rfl⟩
    obtain ⟨inside, named, first⟩ := Array.findIdx?_eq_some_iff_getElem.1 found
    refine ⟨ofNat_mem_functionIndices inside (by simpa using named), fun other mem => ?_⟩
    obtain ⟨_, same⟩ := mem_functionIndices_iff.1 mem
    rw [UInt32.le_iff_toNat_le, toNat_ofNat_of_lt_functions inside]
    exact Nat.le_of_not_lt fun before => first other.toNat before (by simpa using same)
  · rintro ⟨mem, least⟩
    obtain ⟨inside, named⟩ := mem_functionIndices_iff.1 mem
    refine ⟨index.toNat, Array.findIdx?_eq_some_iff_getElem.2 ⟨inside, by simpa using named, ?_⟩,
      UInt32.ofNat_toNat⟩
    intro position before same
    have earlier := Nat.lt_trans before inside
    have le := UInt32.le_iff_toNat_le.1
      (least (ofNat_mem_functionIndices earlier (by simpa using same)))
    rw [toNat_ofNat_of_lt_functions earlier] at le
    exact Nat.not_lt.2 le before

theorem functionByName?_eq_none_iff {name : String} :
    (build steps).functionByName? name = none ↔ functionIndices steps name = ∅ := by
  rw [functionByName?, Option.map_eq_none_iff, Array.findIdx?_eq_none_iff,
    Set.eq_empty_iff_forall_notMem]
  constructor
  · intro none_named index mem
    obtain ⟨inside, named⟩ := mem_functionIndices_iff.1 mem
    have other := none_named _ (Array.getElem_mem inside)
    simp [named] at other
  · intro unused function mem
    obtain ⟨position, inside, there⟩ := Array.mem_iff_getElem.1 mem
    exact beq_eq_false_iff_ne.2 fun named =>
      unused _ (ofNat_mem_functionIndices inside (there ▸ named))

/-- Building appends and is atomic, over every run of building steps. A step that adds an entry is
answered with the number of entries added to the table before, and there the image has the entry for
good. A step that fails changes nothing. A table never has more entries than the limit, and where it
has fewer only the name of a role that was added before is refused. There is nothing from the number of
added entries on. A name finds the least index that was handed out for a function of the name. -/
theorem building_appends (steps : List BuildStep) :
    let image := build steps
    (∀ before entry later index, steps = before ++ .add entry :: later →
      ((build before).add entry).1 = .ok index →
        index.toNat = (accepted before).countP (·.table = entry.table) ∧ image.Holds index entry) ∧
    (∀ entry error, (image.add entry).1 = .error error → (image.add entry).2 = image) ∧
    (∀ table, image.size table ≤ tableLimit) ∧
    (∀ entry error, image.size entry.table < tableLimit → (image.add entry).1 = .error error →
      ∃ role, entry = .role role ∧ error = .duplicateRole role.name ∧ RoleAdded steps role.name) ∧
    (∀ table index, (accepted steps).countP (·.table = table) ≤ index.toNat →
      image.Lacks index table) ∧
    (∀ name index, image.functionByName? name = some index ↔
      IsLeast (functionIndices steps name) index) ∧
    (∀ name, image.functionByName? name = none ↔ functionIndices steps name = ∅) := by
  intro image
  refine ⟨?_, fun entry error => add_snd_of_error, size_le steps, ?_, ?_,
    fun name index => functionByName?_eq_some_iff, fun name => functionByName?_eq_none_iff⟩
  · intro before entry later index split answer
    refine ⟨?_, holds_of_getElem? (addedAt_iff.1 ⟨before, later, split, answer⟩)⟩
    rw [toNat_of_add_ok answer, size_build]
  · intro entry error room refused
    rcases image.add_cases entry with
      ⟨name, named, taken, added⟩ | ⟨-, ⟨full, -⟩ | ⟨-, added⟩⟩
    · rw [added] at refused
      cases refused
      cases entry with
      | role role =>
        cases named
        exact ⟨role, rfl, rfl, mem_roleIndex_iff.1 taken⟩
      | string | float | function => cases named
    · exact absurd room (Nat.not_lt.2 full)
    · rw [added] at refused
      cases refused
  · intro table index beyond
    rw [← size_build] at beyond
    exact lacks_of_size_le beyond

/-- A raw NaN comes back as the value, a second lamp is refused because of the first, and of two
functions of a name the first is found. -/
theorem building_appends_second_lamp :
    let lamp : ImageEntry := .role ⟨"lamp", 1⟩
    let steps : List BuildStep := [.add (.float ⟨0xFFF0000000000001⟩), .add lamp, .add lamp,
      .globals 2, .add (.function (.named "main")), .add (.function (.named "main"))]
    (build steps).float? 0 = some .nan ∧ ((build steps).add lamp).2 = build steps ∧
      RoleAdded steps "lamp" ∧ (build steps).role? 1 = none ∧
      (build steps).functionByName? "main" = some 0 := by
  intro lamp steps
  obtain ⟨placed, unchanged, -, duplicates, beyond, byName, -⟩ := building_appends steps
  have float := placed [] (.float ⟨0xFFF0000000000001⟩) (steps.drop 1) 0 rfl rfl
  have one_role : (accepted steps).countP (·.table = .role) = 1 := by
    simp [steps, lamp, accepted, acceptedFrom, takenIn, after, add, addFloat, addRole, addFunction,
      nextIndex, tableLimit, withGlobals, empty, ImageEntry.table]
  have refused : ((build steps).add lamp).1 = .error (.duplicateRole "lamp") := by
    simp [steps, lamp, build, after, add, addFloat, addRole, addFunction, nextIndex, tableLimit,
      withGlobals, empty]
  have main : AddedAt steps (.function (.named "main")) 0 := by
    refine ⟨steps.take 4, steps.drop 5, rfl, ?_⟩
    simp [steps, lamp, build, after, add, addFloat, addRole, addFunction, nextIndex, tableLimit,
      withGlobals, empty]
  have room : (build steps).size .role < tableLimit := by
    rw [size_build, one_role]
    decide
  obtain ⟨role, same, -, added⟩ := duplicates lamp _ room refused
  obtain rfl : ⟨"lamp", 1⟩ = role := ImageEntry.role.inj same
  exact ⟨float.2, unchanged lamp _ refused, added, beyond .role 1 (Nat.le_of_eq one_role),
    (byName "main" 0).2 ⟨⟨_, main, rfl⟩, fun _ _ => UInt32.zero_le⟩⟩

end Image
end NodeScript
