import NodeScript.Image
import Mathlib.Data.List.Induction

/-!
# Building images

An image is built in steps, in any order: the number of the globals is set, or an entry is offered to
the table of its kind, which takes it in at its end or refuses it. So the tables hold, in order, the
entries that were taken in, and an entry stays where it was put for as long as the building goes on.
-/
namespace NodeScript

/-- What can be added to an image. -/
inductive ImageEntry where
  | string (bytes : Bytes)
  | float (number : Binary64)
  | role (role : Role)
  | function (function : Function)
  deriving DecidableEq

namespace ImageEntry

def table : ImageEntry → ImageTable
  | .string _ => .string
  | .float _ => .float
  | .role _ => .role
  | .function _ => .function

/-- The name that the entry would take in the index of the roles. -/
def roleName? : ImageEntry → Option String
  | .role declared => some declared.name
  | _ => none

end ImageEntry

inductive BuildStep where
  | globals (count : UInt16)
  | add (entry : ImageEntry)

namespace Image

def add (image : Image) : ImageEntry → Except ImageError UInt32 × Image
  | .string bytes => image.addString bytes
  | .float number => image.addFloat number
  | .role role => image.addRole role
  | .function function => image.addFunction function

/-- The number of entries of a table. -/
def size (image : Image) : ImageTable → Nat
  | .string => image.strings.size
  | .float => image.floats.size
  | .role => image.roles.size
  | .function => image.functions.size

def entries (image : Image) : ImageTable → List ImageEntry
  | .string => image.strings.toList.map .string
  | .float => image.floats.toList.map .float
  | .role => image.roles.toList.map .role
  | .function => image.functions.toList.map .function

/-- The image with the entry at the end of its table, and with the index given to its name. -/
def including (image : Image) (index : UInt32) : ImageEntry → Image
  | .string bytes => { image with strings := image.strings.push bytes }
  | .float number => { image with floats := image.floats.push number }
  | .role role =>
    { image with
      roles := image.roles.push role
      roleIndex := image.roleIndex.insert role.name index }
  | .function function => { image with functions := image.functions.push function }

theorem length_entries (image : Image) (table : ImageTable) :
    (image.entries table).length = image.size table := by
  cases table <;> exact List.length_map _

theorem entries_including (image : Image) (index : UInt32) (entry : ImageEntry) (table : ImageTable) :
    (image.including index entry).entries table =
      image.entries table ++ [entry].filter (·.table = table) := by
  cases entry <;> cases table <;> simp [including, entries, ImageEntry.table]

section
variable {image : Image} {entry : ImageEntry}

theorem add_of_taken {name : String} (named : entry.roleName? = some name)
    (taken : name ∈ image.roleIndex) :
    image.add entry = (.error (.duplicateRole name), image) := by
  cases entry with
  | role role =>
    cases named
    exact if_pos (Std.HashMap.contains_iff_mem.2 taken)
  | string | float | function => cases named

theorem add_of_fresh (fresh : ∀ name, entry.roleName? = some name → name ∉ image.roleIndex) :
    image.add entry = match nextIndex entry.table (image.size entry.table) with
      | .ok index => (.ok index, image.including index entry)
      | .error error => (.error error, image) := by
  cases entry with
  | role role =>
    exact if_neg fun taken => fresh role.name rfl (Std.HashMap.contains_iff_mem.1 taken)
  | string | float | function => rfl

/-- All that can come of an entry: its name is taken, its table is full, or it goes in. -/
theorem add_cases (image : Image) (entry : ImageEntry) :
    (∃ name, entry.roleName? = some name ∧ name ∈ image.roleIndex ∧
      image.add entry = (.error (.duplicateRole name), image)) ∨
    (∀ name, entry.roleName? = some name → name ∉ image.roleIndex) ∧
      (tableLimit ≤ image.size entry.table ∧
          image.add entry = (.error (.tableFull entry.table), image) ∨
        image.size entry.table < tableLimit ∧
          image.add entry = (.ok (UInt32.ofNat (image.size entry.table)),
            image.including (UInt32.ofNat (image.size entry.table)) entry)) := by
  by_cases taken : ∃ name, entry.roleName? = some name ∧ name ∈ image.roleIndex
  · obtain ⟨name, named, mem⟩ := taken
    exact .inl ⟨name, named, mem, add_of_taken named mem⟩
  · have fresh : ∀ name, entry.roleName? = some name → name ∉ image.roleIndex :=
      fun name named mem => taken ⟨name, named, mem⟩
    refine .inr ⟨fresh, ?_⟩
    rw [add_of_fresh fresh, nextIndex]
    by_cases room : image.size entry.table < tableLimit
    · exact .inr ⟨room, by rw [if_pos room]⟩
    · exact .inl ⟨Nat.le_of_not_lt room, by rw [if_neg room]⟩

theorem add_snd_of_error {error : ImageError} (refused : (image.add entry).1 = .error error) :
    (image.add entry).2 = image := by
  rcases image.add_cases entry with
    ⟨name, -, -, added⟩ | ⟨-, ⟨-, added⟩ | ⟨-, added⟩⟩ <;> rw [added] at refused ⊢
  cases refused

theorem add_of_ok {index : UInt32} (taken : (image.add entry).1 = .ok index) :
    index = UInt32.ofNat (image.size entry.table) ∧ image.size entry.table < tableLimit ∧
      (image.add entry).2 = image.including index entry := by
  rcases image.add_cases entry with
    ⟨name, -, -, added⟩ | ⟨-, ⟨-, added⟩ | ⟨room, added⟩⟩ <;> rw [added] at taken ⊢ <;> cases taken
  exact ⟨rfl, room, rfl⟩

end

def after (image : Image) : BuildStep → Image
  | .globals count => image.withGlobals count
  | .add entry => (image.add entry).2

/-- The image that is built by the steps. -/
def build (steps : List BuildStep) : Image := steps.foldl after empty

/-- The entry that goes in with the step, if one does. -/
def takenIn (image : Image) : BuildStep → List ImageEntry
  | .globals _ => []
  | .add entry =>
    match (image.add entry).1 with
    | .ok _ => [entry]
    | .error _ => []

def acceptedFrom : Image → List BuildStep → List ImageEntry
  | _, [] => []
  | image, step :: steps => image.takenIn step ++ acceptedFrom (image.after step) steps

/-- The entries that the steps add with success, in order. -/
def accepted (steps : List BuildStep) : List ImageEntry := acceptedFrom empty steps

/-- One of the steps adds the entry, and is answered with the index. -/
def AddedAt (steps : List BuildStep) (entry : ImageEntry) (index : UInt32) : Prop :=
  ∃ before later, steps = before ++ .add entry :: later ∧ ((build before).add entry).1 = .ok index

theorem entries_after (image : Image) (step : BuildStep) (table : ImageTable) :
    (image.after step).entries table =
      image.entries table ++ (image.takenIn step).filter (·.table = table) := by
  cases step with
  | globals count => cases table <;> exact (List.append_nil _).symm
  | add entry =>
    rw [after, takenIn]
    cases answer : (image.add entry).1 with
    | ok index => rw [(add_of_ok answer).2.2, entries_including]
    | error error => rw [add_snd_of_error answer, List.filter_nil, List.append_nil]

/-- Whatever is added later, the entries that are there keep their places. -/
theorem entries_foldl_after (image : Image) (steps : List BuildStep) (table : ImageTable) :
    (steps.foldl after image).entries table =
      image.entries table ++ (acceptedFrom image steps).filter (·.table = table) := by
  induction steps generalizing image with
  | nil => exact (List.append_nil _).symm
  | cons step steps ih =>
    rw [List.foldl_cons, ih, entries_after, acceptedFrom, List.filter_append, List.append_assoc]

theorem entries_build (steps : List BuildStep) (table : ImageTable) :
    (build steps).entries table = (accepted steps).filter (·.table = table) := by
  rw [build, entries_foldl_after, accepted]
  cases table <;> rfl

theorem size_build (steps : List BuildStep) (table : ImageTable) :
    (build steps).size table = (accepted steps).countP (·.table = table) := by
  rw [← length_entries, entries_build, List.countP_eq_length_filter]

theorem build_concat (steps : List BuildStep) (step : BuildStep) :
    build (steps ++ [step]) = (build steps).after step := List.foldl_append

/-- What every step keeps holds of all images that are built. -/
theorem build_induction {motive : Image → Prop} (start : motive empty)
    (step : ∀ image step, motive image → motive (after image step)) (steps : List BuildStep) :
    motive (build steps) := by
  induction steps using List.reverseRecOn with
  | nil => exact start
  | append_singleton steps last ih =>
    rw [build_concat]
    exact step _ last ih

theorem size_including_le {index : UInt32} {entry : ImageEntry} (image : Image) (table : ImageTable) :
    (image.including index entry).size table ≤
      if entry.table = table then image.size table + 1 else image.size table := by
  rw [← length_entries, ← length_entries, entries_including]
  by_cases same : entry.table = table <;> simp [same]

theorem size_le (steps : List BuildStep) (table : ImageTable) :
    (build steps).size table ≤ tableLimit := by
  refine build_induction (motive := fun image => image.size table ≤ tableLimit) ?_ ?_ steps
  · cases table <;> exact Nat.zero_le _
  · rintro image (count | entry) le
    · exact le
    · rcases image.add_cases entry with
        ⟨name, -, -, added⟩ | ⟨-, ⟨-, added⟩ | ⟨room, added⟩⟩ <;> rw [after, added]
      · exact le
      · exact le
      · refine Nat.le_trans (image.size_including_le table) ?_
        split
        case isTrue same => exact same ▸ room
        case isFalse => exact le

/-- What stands behind the entries that were there is what the step has added. -/
theorem answer_of_getElem?_after {image : Image} {step : BuildStep} {entry : ImageEntry}
    {index : UInt32} (beyond : (image.entries entry.table).length ≤ index.toNat)
    (there : ((image.after step).entries entry.table)[index.toNat]? = some entry) :
    step = .add entry ∧ (image.add entry).1 = .ok index := by
  rw [entries_after, List.getElem?_append_right beyond] at there
  cases step with
  | globals count => cases there
  | add other =>
    rw [takenIn] at there
    cases answer : (image.add other).1 with
    | error error =>
      rw [answer] at there
      cases there
    | ok taken =>
      rw [answer] at there
      obtain rfl : entry = other :=
        List.mem_singleton.1 (List.mem_filter.1 (List.mem_of_getElem? there)).1
      have within := Nat.lt_of_lt_of_le (List.getElem?_eq_some_iff.1 there).1
        (List.length_filter_le _ _)
      have place : index.toNat = image.size entry.table := by
        rw [length_entries] at beyond within
        rw [List.length_singleton] at within
        omega
      rw [answer, (add_of_ok answer).1, ← place, UInt32.ofNat_toNat]
      exact ⟨rfl, rfl⟩

/-- The indices of a table are words. -/
theorem toNat_ofNat_of_lt_tableLimit {position : Nat} (room : position < tableLimit) :
    (UInt32.ofNat position).toNat = position :=
  UInt32.toNat_ofNat_of_lt' (Nat.lt_trans room (by decide))

theorem toNat_of_add_ok {image : Image} {entry : ImageEntry} {index : UInt32}
    (taken : (image.add entry).1 = .ok index) : index.toNat = image.size entry.table := by
  obtain ⟨rfl, room, -⟩ := add_of_ok taken
  exact toNat_ofNat_of_lt_tableLimit room

/-- A step that adds an entry puts it where the index that answers it says, for good. -/
theorem addedAt_iff {steps : List BuildStep} {entry : ImageEntry} {index : UInt32} :
    AddedAt steps entry index ↔
      ((build steps).entries entry.table)[index.toNat]? = some entry := by
  constructor
  · rintro ⟨before, later, rfl, answer⟩
    have place := (toNat_of_add_ok answer).trans ((build before).length_entries entry.table).symm
    rw [build, List.foldl_append, List.foldl_cons, ← build, entries_foldl_after, after,
      (add_of_ok answer).2.2, entries_including, place]
    simp
  · intro there
    induction steps using List.reverseRecOn with
    | nil => cases entry <;> cases there
    | append_singleton steps last ih =>
      rw [build_concat] at there
      rcases Nat.lt_or_ge index.toNat ((build steps).entries entry.table).length with old | beyond
      · rw [entries_after, List.getElem?_append_left old] at there
        obtain ⟨before, later, rfl, answer⟩ := ih there
        exact ⟨before, later ++ [last], by simp, answer⟩
      · obtain ⟨rfl, answer⟩ := answer_of_getElem?_after beyond there
        exact ⟨steps, [], rfl, answer⟩

end Image
end NodeScript
