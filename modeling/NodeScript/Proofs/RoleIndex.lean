import NodeScript.Proofs.ImageBuilding

/-!
# The index of the roles

Images find roles by position and by name. While an image is built the two agree: the index gives to a
name the one position at which the table has a role of that name. So whether a name is free can be
asked of the index, and it is asked before whether there is room.
-/
namespace NodeScript
namespace Image

/-- The index finds each name where the table has it, and no other names. -/
def IndexesRoles (image : Image) : Prop :=
  ∀ name index, image.roleByName? name = some index ↔
    ∃ role, image.role? index = some role ∧ role.name = name

variable {image : Image}

theorem indexesRoles_push {role : Role} (indexes : image.IndexesRoles)
    (fresh : role.name ∉ image.roleIndex) (room : image.roles.size < tableLimit) :
    (image.including (UInt32.ofNat image.roles.size) (.role role)).IndexesRoles := by
  have place := toNat_ofNat_of_lt_tableLimit room
  have absent : ∀ index other, image.role? index = some other → other.name ≠ role.name := by
    intro index other there same
    have found := (indexes role.name index).2 ⟨other, there, same⟩
    exact fresh (Std.HashMap.mem_iff_isSome_getElem?.2 (Option.isSome_of_eq_some found))
  intro name index
  have found := indexes name index
  simp only [roleByName?, role?] at found absent
  simp only [including, roleByName?, role?, Std.HashMap.getElem?_insert, Array.getElem?_push,
    beq_iff_eq]
  by_cases same : role.name = name
  · subst same
    rw [if_pos rfl, Option.some.injEq]
    constructor
    · rintro rfl
      exact ⟨role, if_pos place, rfl⟩
    · rintro ⟨other, there, same⟩
      split at there
      case isTrue last => rw [← last, UInt32.ofNat_toNat]
      case isFalse => exact absurd same (absent index other there)
  · rw [if_neg same, found]
    by_cases last : index.toNat = image.roles.size
    · rw [if_pos last, last, Array.getElem?_size]
      simp [same]
    · rw [if_neg last]

theorem indexesRoles_build (steps : List BuildStep) : (build steps).IndexesRoles := by
  refine build_induction ?_ ?_ steps
  · intro name index
    simp [empty, roleByName?, role?]
  · rintro image (count | entry) indexes
    · exact indexes
    · rcases image.add_cases entry with
        ⟨name, -, -, added⟩ | ⟨fresh, ⟨-, added⟩ | ⟨room, added⟩⟩ <;> rw [after, added]
      · exact indexes
      · exact indexes
      · cases entry with
        | role role => exact indexesRoles_push indexes (fresh role.name rfl) room
        | string | float | function => exact indexes

/-- One of the steps adds a role with the name. -/
def RoleAdded (steps : List BuildStep) (name : String) : Prop :=
  ∃ role index, AddedAt steps (.role role) index ∧ role.name = name

theorem addedAt_role_iff {steps : List BuildStep} {role : Role} {index : UInt32} :
    AddedAt steps (.role role) index ↔ (build steps).role? index = some role := by
  rw [addedAt_iff, role?]
  simp [entries, ImageEntry.table]

theorem mem_roleIndex_iff {steps : List BuildStep} {name : String} :
    name ∈ (build steps).roleIndex ↔ RoleAdded steps name := by
  have indexes := indexesRoles_build steps
  rw [Std.HashMap.mem_iff_isSome_getElem?, Option.isSome_iff_exists]
  constructor
  · rintro ⟨index, found⟩
    obtain ⟨role, there, named⟩ := (indexes name index).1 found
    exact ⟨role, index, addedAt_role_iff.2 there, named⟩
  · rintro ⟨role, index, added, named⟩
    exact ⟨index, (indexes name index).2 ⟨role, addedAt_role_iff.1 added, named⟩⟩

/-- A role is refused if its name was added, and otherwise only if the table is full. -/
theorem addRole_fst_eq_error_iff {steps : List BuildStep} {role : Role} {error : ImageError} :
    ((build steps).addRole role).1 = .error error ↔
      RoleAdded steps role.name ∧ error = .duplicateRole role.name ∨
      ¬RoleAdded steps role.name ∧ (build steps).roles.size = tableLimit ∧
        error = .tableFull .role := by
  rw [← mem_roleIndex_iff]
  change ((build steps).add (.role role)).1 = _ ↔ _
  rcases (build steps).add_cases (.role role) with
    ⟨name, named, taken, added⟩ | ⟨fresh, ⟨full, added⟩ | ⟨room, added⟩⟩ <;> rw [added]
  · cases named
    simp [taken, eq_comm]
  · have size : (build steps).roles.size = tableLimit :=
      Nat.le_antisymm (size_le steps .role) full
    simp [fresh role.name rfl, size, eq_comm, ImageEntry.table]
  · have size : (build steps).roles.size ≠ tableLimit := Nat.ne_of_lt room
    simp [fresh role.name rfl, size]

/-- The index of the roles and their table never come apart, over every run of building steps. A name
is found at an index exactly if the role there has the name, and no two roles have the same name. A
role is refused as a duplicate exactly if its name was added before, whether or not the table is full,
and otherwise exactly if the table is full. -/
theorem roleIndex_agrees (steps : List BuildStep) :
    let image := build steps
    (∀ name index, image.roleByName? name = some index ↔
      index.toNat < image.roles.size ∧ ∃ role, image.role? index = some role ∧ role.name = name) ∧
    (∀ index index' role role', image.role? index = some role → image.role? index' = some role' →
      role.name = role'.name → index = index') ∧
    (∀ role error, (image.addRole role).1 = .error error ↔
      RoleAdded steps role.name ∧ error = .duplicateRole role.name ∨
      ¬RoleAdded steps role.name ∧ image.roles.size = tableLimit ∧ error = .tableFull .role) := by
  intro image
  have indexes := indexesRoles_build steps
  refine ⟨fun name index => ?_, ?_, fun role error => addRole_fst_eq_error_iff⟩
  · rw [indexes name index, iff_and_self]
    rintro ⟨role, there, -⟩
    exact (Array.getElem?_eq_some_iff.1 there).1
  · intro index index' role role' there there' same
    have found := (indexes role'.name index).2 ⟨role, there, same⟩
    have found' := (indexes role'.name index').2 ⟨role', there', rfl⟩
    exact Option.some.inj (found.symm.trans found')

/-- A second lamp is refused and leaves no trace in front of the door. -/
theorem roleIndex_agrees_duplicate :
    let steps : List BuildStep :=
      [.add (.role ⟨"lamp", 1⟩), .add (.role ⟨"lamp", 2⟩), .globals 3, .add (.role ⟨"door", 4⟩)]
    (build steps).roleByName? "door" = some 1 ∧
      (∀ index, (build steps).role? index = some ⟨"lamp", 1⟩ → index = 0) ∧
      ((build steps).addRole ⟨"lamp", 5⟩).1 = .error (.duplicateRole "lamp") := by
  intro steps
  have roles : (build steps).roles = #[⟨"lamp", 1⟩, ⟨"door", 4⟩] := by
    simp [steps, build, after, add, addRole, nextIndex, tableLimit, withGlobals, empty]
  have lamp : (build steps).role? 0 = some ⟨"lamp", 1⟩ := by rw [role?, roles]; rfl
  have door : (build steps).role? 1 = some ⟨"door", 4⟩ := by rw [role?, roles]; rfl
  obtain ⟨byName, distinct, refused⟩ := roleIndex_agrees steps
  refine ⟨(byName "door" 1).2 ⟨by rw [roles]; decide, _, door, rfl⟩, ?_, ?_⟩
  · intro index there
    exact distinct index 0 _ _ there lamp rfl
  · exact (refused ⟨"lamp", 5⟩ _).2 (.inl ⟨⟨_, 0, addedAt_role_iff.2 lamp, rfl⟩, rfl⟩)

end Image
end NodeScript
