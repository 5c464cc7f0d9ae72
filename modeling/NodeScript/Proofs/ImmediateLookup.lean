import NodeScript.Proofs.ImageBuilding
import NodeScript.Proofs.NormalizedEvaluation
import NodeScript.Proofs.OperandEvaluation

/-!
# Opcodes that look up an index

An immediate operand can be any 32-bit integer, and several opcodes take it for the index of an entry:
of the frame's variables and parameters, of the globals and of the tables of the image. They find the
entry at just the integers from zero up to the number of entries. Variables are looked up by the
integer, and the tables of images by its bits, which come to the same since these tables are small.
-/
namespace NodeScript

/-- The result of looking up an index among so many entries: the entry there, or else the fault. -/
structure LooksUp (result : Except Fault Value) (size : Nat) (entry : Fin size → Value)
    (outOfRange : Fault) (index : Int32) : Prop where
  ok_iff : ∀ v, result = .ok v ↔ ∃ i : Fin size, index.toInt = i.val ∧ v = entry i
  error_iff : ∀ fault, result = .error fault ↔
    fault = outOfRange ∧ ¬(0 ≤ index.toInt ∧ index.toInt < size)

/-- It is enough to know the result for every entry and for want of one. -/
theorem LooksUp.of_cases {result : Except Fault Value} {size : Nat} {entry : Fin size → Value}
    {outOfRange : Fault} {index : Int32}
    (found : ∀ i : Fin size, index.toInt = i.val → result = .ok (entry i))
    (missed : ¬(0 ≤ index.toInt ∧ index.toInt < size) → result = .error outOfRange) :
    LooksUp result size entry outOfRange index := by
  by_cases inside : 0 ≤ index.toInt ∧ index.toInt < size
  · have place : index.toInt = index.toInt.toNat := (Int.toNat_of_nonneg inside.1).symm
    let i : Fin size := ⟨index.toInt.toNat, by omega⟩
    have there := found i place
    constructor
    · intro v
      rw [there, Except.ok.injEq]
      constructor
      · rintro rfl
        exact ⟨i, place, rfl⟩
      · rintro ⟨j, same, rfl⟩
        exact Except.ok.inj (there.symm.trans (found j same))
    · simp [there, inside]
  · rw [missed inside]
    constructor
    · intro v
      constructor
      · rintro ⟨⟩
      · rintro ⟨i, same, -⟩
        exact absurd ⟨same ▸ Int.natCast_nonneg _, by omega⟩ inside
    · simp [inside, eq_comm]

/-- The bits of an integer are the index that it is, if it is a small one. -/
theorem toNat_toUInt32_eq {index : Int32} {i : Nat} (is : index.toInt = i) :
    index.toUInt32.toNat = i := by
  have bits : index.toInt = index.toBitVec.toInt := rfl
  rw [bits, BitVec.toInt_eq_toNat_cond] at is
  change index.toBitVec.toNat = i
  omega

/-- The bits of an integer that is no index are beyond every table of an image. -/
theorem le_toNat_toUInt32 {index : Int32} {size : Nat} (few : size ≤ Image.tableLimit)
    (outside : ¬(0 ≤ index.toInt ∧ index.toInt < size)) : size ≤ index.toUInt32.toNat := by
  have bits : index.toInt = index.toBitVec.toInt := rfl
  -- A negative integer has its highest bit set, and no table is that large.
  have limit : Image.tableLimit = 65535 := rfl
  rw [bits, BitVec.toInt_eq_toNat_cond] at outside
  change size ≤ index.toBitVec.toNat
  omega

namespace Handler

variable {table : Array Value} {index : Int32}

theorem lookup?_of_eq {i : Fin table.size} (is : index.toInt = i.val) :
    lookup? table index = some table[i] := by
  have nonneg : ¬index < 0 := by
    rw [Int32.lt_iff_toInt_lt, is]
    exact Int.not_lt.2 (Int.natCast_nonneg _)
  have place : index.toNatClampNeg = i.val := by rw [Int32.toNatClampNeg, is, Int.toNat_natCast]
  rw [lookup?, if_neg nonneg, place]
  exact Array.getElem?_eq_getElem i.isLt

theorem lookup?_of_outside (outside : ¬(0 ≤ index.toInt ∧ index.toInt < table.size)) :
    lookup? table index = none := by
  rw [lookup?]
  split
  case isTrue => rfl
  case isFalse nonneg =>
    rw [Int32.lt_iff_toInt_lt] at nonneg
    have zero : (0 : Int32).toInt = 0 := rfl
    have beyond : table.size ≤ index.toInt.toNat := by omega
    exact Array.getElem?_eq_none beyond

end Handler

namespace Engine

/-- The opcode stands at the frame's position, with an immediate operand behind it that reads as the
index, however it is spelled, and there is room for the opcode. -/
structure Indexes (engine : Engine) (frame : Frame) (opcode : Opcode) (index : Int32) : Prop where
  code : (engine.functionCode frame)[frame.pc]? = some opcode.toByte
  operand : ∃ rest,
    Operand.read? ((engine.functionCode frame).drop (frame.pc + 1)) = some (index, rest)
  room : engine.depth < engine.settings.maxDepth

variable {engine : Engine} {frame : Frame} {opcode : Opcode} {index : Int32}

/-- The opcode comes to what its procedure makes of the operand. -/
theorem Indexes.evalValue_fst_eq (indexes : engine.Indexes frame opcode index)
    {next : Int32 → Procedure Value} {result : Except Fault Value}
    (asks : opcode.handler engine.toWorld frame = Procedure.nextImmediate >>= next)
    (settles : next index = .ofResult result) : (engine.evalValue frame).1 = result := by
  obtain ⟨rest, operand⟩ := indexes.operand
  have code := engine.cursor_rest { frame with pc := frame.pc + 1 }
  rw [evalValue_fst_opcode indexes.code indexes.room, asks, Procedure.nextImmediate,
    Procedure.immediate_bind, Procedure.run, Cursor.readImmediate_some (code ▸ operand)]
  simp only [Procedure.done_bind, settles, Procedure.run_ofResult]

/-- The opcode looks up the operand if its procedure does. -/
theorem Indexes.looksUp (indexes : engine.Indexes frame opcode index)
    {next : Int32 → Procedure Value}
    (asks : opcode.handler engine.toWorld frame = Procedure.nextImmediate >>= next)
    {size : Nat} {entry : Fin size → Value} {outOfRange : Fault}
    (found : ∀ i : Fin size, index.toInt = i.val → next index = .done (entry i))
    (missed : ¬(0 ≤ index.toInt ∧ index.toInt < size) → next index = .fail outOfRange) :
    LooksUp (engine.evalValue frame).1 size entry outOfRange index :=
  .of_cases (fun i is => indexes.evalValue_fst_eq asks (found i is))
    fun outside => indexes.evalValue_fst_eq asks (missed outside)

theorem Indexes.loadLocal (indexes : engine.Indexes frame .loadLocal index) :
    LooksUp (engine.evalValue frame).1 frame.locals.size (fun i => frame.locals[i].normalized)
      .localOutOfRange index := by
  refine indexes.looksUp rfl (fun i is => ?_) fun outside => ?_
  · rw [Handler.lookup?_of_eq is]
    rfl
  · rw [Handler.lookup?_of_outside outside]
    rfl

theorem Indexes.loadGlobal (indexes : engine.Indexes frame .loadGlobal index) :
    LooksUp (engine.evalValue frame).1 engine.globals.size (fun i => engine.globals[i])
      .globalOutOfRange index := by
  refine indexes.looksUp rfl (fun i is => ?_) fun outside => ?_
  · exact congrArg (Procedure.require _) (Handler.lookup?_of_eq is)
  · exact congrArg (Procedure.require _) (Handler.lookup?_of_outside outside)

theorem Indexes.literalDouble (indexes : engine.Indexes frame .literalDouble index)
    (few : engine.image.floats.size ≤ Image.tableLimit) :
    LooksUp (engine.evalValue frame).1 engine.image.floats.size
      (fun i => (Value.double engine.image.floats[i]).normalized) .doubleOutOfRange index := by
  refine indexes.looksUp rfl (fun i is => ?_) fun outside => ?_
  · rw [Image.float?, toNat_toUInt32_eq is, Array.getElem?_eq_getElem i.isLt]
    rfl
  · rw [Image.float?, Array.getElem?_eq_none (le_toNat_toUInt32 few outside)]
    rfl

/-- A handle is made of the operand's bits if they are below the number of entries. -/
theorem Indexes.staticHandle (indexes : engine.Indexes frame opcode index) {kind : HandleKind}
    {size : Nat} {outOfRange : Fault} (few : size ≤ Image.tableLimit)
    (asks : opcode.handler engine.toWorld frame = Procedure.nextImmediate >>= fun n =>
      (if n.toUInt32.toNat < size then pure n.toUInt32 else .fail outOfRange) >>= fun entry =>
        pure (.handle kind entry)) :
    LooksUp (engine.evalValue frame).1 size (fun i => .handle kind (UInt32.ofNat i.val)) outOfRange
      index := by
  refine indexes.looksUp asks (fun i is => ?_) fun outside => ?_
  · have place := toNat_toUInt32_eq is
    rw [if_pos (place ▸ i.isLt), ← place, UInt32.ofNat_toNat]
    rfl
  · rw [if_neg (Nat.not_lt.2 (le_toNat_toUInt32 few outside))]
    rfl

/-- A parameter that was not given is undefined and no fault. -/
theorem Indexes.loadParam (indexes : engine.Indexes frame .loadParam index) :
    (∀ i : Fin frame.params.size, index.toInt = i.val →
      (engine.evalValue frame).1 = .ok frame.params[i].normalized) ∧
    (¬(0 ≤ index.toInt ∧ index.toInt < frame.params.size) →
      (engine.evalValue frame).1 = .ok .undefined) := by
  refine ⟨fun i is => indexes.evalValue_fst_eq rfl ?_,
    fun outside => indexes.evalValue_fst_eq rfl ?_⟩
  · rw [Handler.lookup?_of_eq is]
    rfl
  · rw [Handler.lookup?_of_outside outside]
    rfl

/-- Lookups by an immediate operand hit just the entry that the operand names, for every image that is
built and every integer as the operand, however it is spelled. Locals, globals and what the image holds
are found at the integers from zero up to their number, and there is a fault for each kind elsewhere;
a parameter that was not given is undefined. Locals and parameters are normalized when they are loaded,
and globals are normalized already, whatever the host has done. -/
theorem immediate_lookups (steps : List BuildStep) (engine : Engine)
    (built : engine.image = Image.build steps) (frame : Frame) (index : Int32) :
    (engine.Indexes frame .loadLocal index →
      LooksUp (engine.evalValue frame).1 frame.locals.size (fun i => frame.locals[i].normalized)
        .localOutOfRange index) ∧
    (engine.Indexes frame .loadGlobal index →
      LooksUp (engine.evalValue frame).1 engine.globals.size (fun i => engine.globals[i])
        .globalOutOfRange index) ∧
    (engine.Indexes frame .literalDouble index →
      LooksUp (engine.evalValue frame).1 engine.image.floats.size
        (fun i => (Value.double engine.image.floats[i]).normalized) .doubleOutOfRange index) ∧
    (engine.Indexes frame .staticRole index →
      LooksUp (engine.evalValue frame).1 engine.image.roles.size
        (fun i => .handle .role (UInt32.ofNat i.val)) .roleOutOfRange index) ∧
    (engine.Indexes frame .staticBuffer index →
      LooksUp (engine.evalValue frame).1 engine.image.strings.size
        (fun i => .handle .imageBuffer (UInt32.ofNat i.val)) .stringOutOfRange index) ∧
    (engine.Indexes frame .loadParam index →
      (∀ i : Fin frame.params.size, index.toInt = i.val →
        (engine.evalValue frame).1 = .ok frame.params[i].normalized) ∧
      (¬(0 ≤ index.toInt ∧ index.toInt < frame.params.size) →
        (engine.evalValue frame).1 = .ok .undefined)) ∧
    ∀ (settings : Settings) (entropy : UInt64) (operations : List HostOperation),
      ((start (Image.build steps) settings entropy).runAll operations).HasNormalizedGlobals := by
  have few (table : ImageTable) : engine.image.size table ≤ Image.tableLimit :=
    built ▸ Image.size_le steps table
  refine ⟨Indexes.loadLocal, Indexes.loadGlobal, fun indexes => indexes.literalDouble (few .float),
    fun indexes => indexes.staticHandle (few .role) rfl,
    fun indexes => indexes.staticHandle (few .string) rfl, Indexes.loadParam, ?_⟩
  intro settings entropy operations
  exact hasNormalizedGlobals_runAll (hasNormalizedGlobals_start _ settings entropy) operations

/-- A local and a string are found at zero, there is no role and no parameter, and -1 is no string. -/
theorem immediate_lookups_zero :
    let code := Assembler.withImmediate .loadLocal 0 ++ Assembler.withImmediate .loadGlobal 0 ++
      Assembler.withImmediate .literalDouble 0 ++ Assembler.withImmediate .staticRole 0 ++
      Assembler.withImmediate .loadParam 0 ++ Assembler.opcode .staticBuffer ++ [0xFD, 0x00, 0x01]
    let steps := [.globals 1, .add (.string [0x61]), .add (.float ⟨0x3FF8000000000000⟩),
      .add (.function ⟨"f", 1, 0, code⟩)]
    let engine := start (Image.build steps) .standard 0
    let frame (pc : Nat) : Frame := ⟨0, pc, #[.int 7], #[], 0⟩
    (engine.evalValue (frame 0)).1 = .ok (.int 7) ∧
      (engine.evalValue (frame 2)).1 = .ok .undefined ∧
      (engine.evalValue (frame 4)).1 = .ok (.double ⟨0x3FF8000000000000⟩) ∧
      (engine.evalValue (frame 6)).1 = .error .roleOutOfRange ∧
      (engine.evalValue (frame 8)).1 = .ok .undefined ∧
      (engine.evalValue (frame 10)).1 = .error .stringOutOfRange := by
  intro code steps engine frame
  have lookups (pc : Nat) (index : Int32) := immediate_lookups steps engine rfl (frame pc) index
  refine ⟨?_, ?_, ?_, ?_, ?_, ?_⟩
  · exact (((lookups 0 0).1 ⟨rfl, ⟨_, rfl⟩, by decide⟩).ok_iff _).2 ⟨⟨0, by decide⟩, rfl, rfl⟩
  · exact (((lookups 2 0).2.1 ⟨rfl, ⟨_, rfl⟩, by decide⟩).ok_iff _).2 ⟨⟨0, by decide⟩, rfl, rfl⟩
  · exact (((lookups 4 0).2.2.1 ⟨rfl, ⟨_, rfl⟩, by decide⟩).ok_iff _).2 ⟨⟨0, by decide⟩, rfl, rfl⟩
  · exact (((lookups 6 0).2.2.2.1 ⟨rfl, ⟨_, rfl⟩, by decide⟩).error_iff _).2 ⟨rfl, by decide⟩
  · exact ((lookups 8 0).2.2.2.2.2.1 ⟨rfl, ⟨_, rfl⟩, by decide⟩).2 (by decide)
  · exact (((lookups 10 (-1)).2.2.2.2.1 ⟨rfl, ⟨_, rfl⟩, by decide⟩).error_iff _).2 ⟨rfl, by decide⟩

end Engine
end NodeScript
