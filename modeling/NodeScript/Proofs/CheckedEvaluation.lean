import NodeScript.Proofs.CheckedOperation
import NodeScript.Proofs.FramePosition
import NodeScript.Proofs.HostOperation

/-!
# Evaluation on a machine

The evaluator on a machine with words for positions and counters: code is read from a position that is
counted up byte by byte, the nesting counter is counted up before it is compared with the limit and
down after the opcode, and what opcodes compute is made of checked operations. Started with no opcode
under way on code that fits the address space, it never traps and does what the evaluator does.
-/
namespace NodeScript

open Checked

/-! ## Opcodes -/

namespace Handler

open Procedure

variable (world : World)

/-- The number format is looked at when all operands are there. -/
def checkedLoadBuffer : Procedure (Checked Value) := do
  let source ← buffer world
  let format ← uint32
  let offset ← uint32
  match NumberFormat.checkedOfNat format.toNat with
  | .ok (.ok format) => pure do
    let bytes? ← world.checkedBytes? source
    format.kind.checkedRead format.shift (bytes?.getD []) offset.toNat
  | .ok (.error _) => fail .invalidNumberFormat
  | .error trap => pure (.error trap)

/-- Comparing bytes with the packet looks up bytes that may be missing. -/
def checkedStringMatch : Procedure (Checked Value) := do
  let source ← buffer world
  let offset ← uint32
  pure do
    let bytes? ← world.checkedBytes? source
    .ok (.bool (world.packet.matchesTerminated offset.toNat (bytes?.getD [])))

def checkedLength : Procedure (Checked Value) := do
  let v ← value
  pure do
    match ← world.checkedBytes? v with
    | some bytes => .ok (.int (Int32.ofNat bytes.length))
    | none => .ok (.int (Int32.ofNat ((arrayLength? world v).getD 0)))

def checkedUnary (operator : UnaryOp) : Procedure (Checked Value) := do
  let v ← value
  pure (operator.checkedApply v)

def checkedBinary (operator : BinaryOp) : Procedure (Checked Value) := do
  let (left, right) ← pair
  pure (operator.checkedApply left right)

end Handler

/-- The other opcodes have no partial operations: they look up entries that may be missing. -/
def Opcode.checkedHandler (world : World) (frame : Frame) : Opcode → Procedure (Checked Value)
  | .loadBuffer => Handler.checkedLoadBuffer world
  | .stringMatch => Handler.checkedStringMatch world
  | .length => Handler.checkedLength world
  | .unary operator => Handler.checkedUnary operator
  | .binary operator => Handler.checkedBinary operator
  | opcode => .ok <$> opcode.handler world frame

namespace Procedure

def checkedBufferBytes (world : World) : Procedure (Checked Bytes) := do
  let v ← buffer world
  pure do
    let bytes? ← world.checkedBytes? v
    .ok (bytes?.getD [])

end Procedure

theorem Procedure.checkedBufferBytes_eq (world : World) :
    checkedBufferBytes world = .ok <$> bufferBytes world := by
  simp only [checkedBufferBytes, bufferBytes, map_bind, World.checkedBytes?_eq, ok_bind]
  rfl

namespace Handler

open Procedure

variable (world : World)

theorem checkedLoadBuffer_eq : checkedLoadBuffer world = .ok <$> loadBuffer world := by
  simp only [checkedLoadBuffer, loadBuffer, map_bind, World.checkedBytes?_eq, ok_bind,
    NumberFormat.checkedOfNat_eq]
  refine bind_congr fun source => bind_congr fun number => bind_congr fun offset => ?_
  cases NumberFormat.ofNat number.toNat with
  | ok format =>
    -- Offsets are words of 32 bits, so that the end of the number fits a word whatever the data.
    have addressed : offset.toNat + format.kind.bytes < wordSize :=
      Nat.lt_trans (Nat.add_lt_add_of_lt_of_le offset.toNat_lt format.kind.bytes_le) (by decide)
    exact congrArg Procedure.done (format.checkedRead_eq (.inl addressed))
  | error => rfl

theorem checkedStringMatch_eq : checkedStringMatch world = .ok <$> stringMatch world := by
  simp only [checkedStringMatch, stringMatch, map_bind, World.checkedBytes?_eq, ok_bind]
  rfl

theorem checkedLength_eq : checkedLength world = .ok <$> length world := by
  simp only [checkedLength, length, map_bind, World.checkedBytes?_eq, ok_bind]
  refine bind_congr fun v => ?_
  rw [lengthOf]
  cases world.bytes? v <;> rfl

theorem checkedUnary_eq (operator : UnaryOp) : checkedUnary operator = .ok <$> unary operator := by
  simp only [checkedUnary, unary, map_bind, UnaryOp.checkedApply_eq]
  rfl

theorem checkedBinary_eq (operator : BinaryOp) :
    checkedBinary operator = .ok <$> binary operator := by
  simp only [checkedBinary, binary, map_bind, BinaryOp.checkedApply_eq]
  rfl

end Handler

theorem Opcode.checkedHandler_eq (world : World) (frame : Frame) (opcode : Opcode) :
    opcode.checkedHandler world frame = .ok <$> opcode.handler world frame := by
  cases opcode with
  | loadBuffer => exact Handler.checkedLoadBuffer_eq world
  | stringMatch => exact Handler.checkedStringMatch_eq world
  | length => exact Handler.checkedLength_eq world
  | unary operator => exact Handler.checkedUnary_eq operator
  | binary operator => exact Handler.checkedBinary_eq operator
  | _ => rfl

/-! ## Machines -/

/-- What evaluation on a machine moves and changes. -/
structure Machine where
  /-- The position in the code. -/
  pc : Nat
  /-- The number of opcodes being evaluated. -/
  depth : Nat
  generator : Generator
  lastFault : Option Fault

namespace Machine

variable {α : Type}

def fail (fault : Fault) (machine : Machine) : Except Fault α × Machine :=
  (.error fault, { machine with lastFault := some fault })

def fetchByte (code : Bytes) (machine : Machine) : Checked (Except Fault UInt8 × Machine) :=
  match code[machine.pc]? with
  | some byte => do
    let pc ← word (machine.pc + 1)
    .ok (.ok byte, { machine with pc })
  | none => .ok (machine.fail .codeOverrun)

/-- Fetches bytes one by one up to the first that is missing. -/
def fetchBytes (code : Bytes) : Nat → Machine → Checked (Except Fault Bytes × Machine)
  | 0, machine => .ok (.ok [], machine)
  | count + 1, machine => do
    match ← machine.fetchByte code with
    | (.error fault, machine) => .ok (.error fault, machine)
    | (.ok byte, machine) =>
      match ← fetchBytes code count machine with
      | (.error fault, machine) => .ok (.error fault, machine)
      | (.ok bytes, machine) => .ok (.ok (byte :: bytes), machine)

def fetchImmediate (code : Bytes) (machine : Machine) :
    Checked (Except Fault Int32 × Machine) := do
  match ← machine.fetchByte code with
  | (.error fault, machine) => .ok (.error fault, machine)
  | (.ok head, machine) =>
    if head.toNat < Operand.firstHead then .ok (.ok (Int32.ofNat head.toNat), machine)
    else
      match ← machine.fetchBytes code (Operand.magnitudeLength head) with
      | (.error fault, machine) => .ok (.error fault, machine)
      | (.ok magnitude, machine) =>
        let n := Int32.ofNat magnitude.bigEndian
        .ok (.ok (if Operand.negates head then -n else n), machine)

/-- Fetches the byte that an expression starts with. -/
def fetchExpression (code : Bytes) (opcode : UInt8 → Machine → Checked (Except Fault Value × Machine))
    (machine : Machine) : Checked (Except Fault Value × Machine) := do
  match ← machine.fetchByte code with
  | (.error fault, machine) => .ok (.error fault, machine)
  | (.ok byte, machine) =>
    if compactBase ≤ byte then
      let n ← checkedCompactValue byte
      .ok (.ok (.int n), machine)
    else opcode byte machine

/-- Counts one more opcode, and lets an action run unless these are more than the limit. -/
def nested (limit : Nat) (action : Machine → Checked (Except Fault α × Machine)) (machine : Machine) :
    Checked (Except Fault α × Machine) := do
  let deeper ← word (machine.depth + 1)
  if limit < deeper then
    let depth ← difference deeper 1
    .ok ({ machine with depth }.fail .tooDeep)
  else
    let (result, machine) ← action { machine with depth := deeper }
    let depth ← difference machine.depth 1
    .ok (result, { machine with depth })

end Machine

/-- Runs a procedure on a machine, with `evaluate` to answer its requests for operands. -/
def Procedure.checkedRun {α : Type} (code : Bytes)
    (evaluate : Machine → Checked (Except Fault Value × Machine)) :
    Procedure (Checked α) → Machine → Checked (Except Fault α × Machine)
  | done result, machine => do
    let a ← result
    .ok (.ok a, machine)
  | fail fault, machine => .ok (machine.fail fault)
  | immediate next, machine => do
    match ← machine.fetchImmediate code with
    | (.ok n, machine) => (next n).checkedRun code evaluate machine
    | (.error fault, machine) => .ok (.error fault, machine)
  | operand next, machine => do
    match ← evaluate machine with
    | (.ok v, machine) => (next v).checkedRun code evaluate machine
    | (.error fault, machine) => .ok (.error fault, machine)
  | draw sample next, machine =>
    let (v, generator) := sample machine.generator
    (next v).checkedRun code evaluate { machine with generator }

section
variable (world : World) (frame : Frame) (code : Bytes) (limit : Nat)

/-- What an opcode byte starts. The position of a declared opcode is computed for a trace. -/
def checkedDispatch (evaluate : Machine → Checked (Except Fault Value × Machine)) (byte : UInt8)
    (machine : Machine) : Checked (Except Fault Value × Machine) :=
  match Opcode.ofByte? byte with
  | some opcode => do
    let _ ← difference machine.pc 1
    (opcode.checkedHandler world frame).checkedRun code evaluate machine
  | none => .ok (machine.fail .invalidOpcode)

/-- Evaluates the expression at the machine's position. The limit and not the room is what ends the
nesting, so that the room is never used up below the limit. -/
def checkedEvaluate : Nat → Machine → Checked (Except Fault Value × Machine)
  | 0 => Machine.fetchExpression code fun _ => Machine.nested limit fun _ => .error .unreachable
  | room + 1 => Machine.fetchExpression code fun byte =>
    Machine.nested limit (checkedDispatch world frame code (checkedEvaluate room) byte)

end

/-! ## The machine and the cursor -/

open Cursor

namespace Machine

variable {code : Bytes} {start middle stop machine : Machine}

/-- The cursor at the machine's position. -/
def cursor (code : Bytes) (machine : Machine) : Cursor :=
  ⟨code.drop machine.pc, machine.depth, machine.generator, machine.lastFault⟩

/-- The position has gone forward, at most to the end of the code, and as many opcodes are under way. -/
structure Forward (code : Bytes) (start stop : Machine) : Prop where
  le_pc : start.pc ≤ stop.pc
  pc_le : stop.pc ≤ max start.pc code.length
  depth_eq : stop.depth = start.depth

theorem Forward.refl (code : Bytes) (machine : Machine) : Forward code machine machine :=
  ⟨Nat.le_refl _, Nat.le_max_left _ _, rfl⟩

theorem Forward.within (le : start.pc ≤ stop.pc) (inside : stop.pc ≤ code.length)
    (same : stop.depth = start.depth) : Forward code start stop :=
  ⟨le, Nat.le_trans inside (Nat.le_max_right _ _), same⟩

theorem Forward.trans (first : Forward code start middle) (second : Forward code middle stop) :
    Forward code start stop where
  le_pc := Nat.le_trans first.le_pc second.le_pc
  pc_le := by
    have := first.pc_le
    have := second.pc_le
    omega
  depth_eq := second.depth_eq.trans first.depth_eq

/-- The checked outcome of an action from `start` is no trap. It is the outcome that the action has on
the cursor, and the machine has gone forward to where the cursor has stopped. -/
def Follows {α : Type} (code : Bytes) (start : Machine) (checked : Checked (Except Fault α × Machine))
    (outcome : Except Fault α × Cursor) : Prop :=
  ∃ result stop, checked = .ok (result, stop) ∧ outcome = (result, stop.cursor code) ∧
    Forward code start stop

theorem Follows.fail {α : Type} (code : Bytes) (fault : Fault) (machine : Machine) :
    Follows code machine (.ok (machine.fail fault : Except Fault α × Machine))
      ((machine.cursor code).fail fault) :=
  ⟨_, _, rfl, rfl, Nat.le_refl _, Nat.le_max_left _ _, rfl⟩

theorem Follows.after {α : Type} {checked : Checked (Except Fault α × Machine)}
    {outcome : Except Fault α × Cursor} (first : Forward code start middle)
    (second : Follows code middle checked outcome) : Follows code start checked outcome := by
  obtain ⟨result, stop, checked_eq, outcome_eq, forward⟩ := second
  exact ⟨result, stop, checked_eq, outcome_eq, first.trans forward⟩

theorem cursor_rest_cons {byte : UInt8} (h : code[machine.pc]? = some byte) :
    (machine.cursor code).rest = byte :: code.drop (machine.pc + 1) := by
  obtain ⟨inside, rfl⟩ := List.getElem?_eq_some_iff.1 h
  exact List.drop_eq_getElem_cons inside

theorem cursor_rest_nil (h : code[machine.pc]? = none) : (machine.cursor code).rest = [] :=
  List.drop_eq_nil_of_le (List.getElem?_eq_none_iff.1 h)

theorem pc_lt {byte : UInt8} (h : code[machine.pc]? = some byte) : machine.pc < code.length :=
  (List.getElem?_eq_some_iff.1 h).1

theorem fetchByte_none (h : code[machine.pc]? = none) :
    machine.fetchByte code = .ok (machine.fail .codeOverrun) := by
  rw [fetchByte, h]

variable (fits : code.length < wordSize)
include fits

theorem fetchByte_some {byte : UInt8} (h : code[machine.pc]? = some byte) :
    machine.fetchByte code = .ok (.ok byte, { machine with pc := machine.pc + 1 }) := by
  rw [fetchByte, h]
  simp only [word_ok (Nat.lt_of_le_of_lt (pc_lt h) fits), ok_bind]

theorem fetchBytes_ok {count : Nat} (machine : Machine)
    (enough : machine.pc + count ≤ code.length) :
    machine.fetchBytes code count = .ok (.ok ((code.drop machine.pc).take count),
      { machine with pc := machine.pc + count }) := by
  induction count generalizing machine with
  | zero => rfl
  | succ count ih =>
    have inside : machine.pc < code.length := by omega
    have later := ih { machine with pc := machine.pc + 1 } (by simp only; omega)
    rw [fetchBytes, fetchByte_some fits (List.getElem?_eq_getElem inside), ok_bind]
    simp only [later, ok_bind]
    rw [List.drop_eq_getElem_cons inside, List.take_succ_cons, Nat.add_right_comm, Nat.add_assoc]

/-- Up to the byte that is missing the others are fetched. -/
theorem fetchBytes_fault {count : Nat} (machine : Machine) (inside : machine.pc ≤ code.length)
    (few : code.length < machine.pc + count) :
    machine.fetchBytes code count = .ok ({ machine with pc := code.length }.fail .codeOverrun) := by
  induction count generalizing machine with
  | zero => omega
  | succ count ih =>
    cases byte_at : code[machine.pc]? with
    | none =>
      have ended : code.length = machine.pc :=
        Nat.le_antisymm (List.getElem?_eq_none_iff.1 byte_at) inside
      rw [fetchBytes, fetchByte_none byte_at, ended]
      rfl
    | some byte =>
      have later := ih { machine with pc := machine.pc + 1 } (pc_lt byte_at) (by simp only; omega)
      rw [fetchBytes, fetchByte_some fits byte_at, ok_bind]
      simp only [later, ok_bind]
      rfl

theorem follows_fetchImmediate (machine : Machine) :
    Follows code machine (machine.fetchImmediate code) (machine.cursor code).readImmediate := by
  cases byte_at : code[machine.pc]? with
  | none =>
    have ended := cursor_rest_nil byte_at
    have read : Operand.read? (machine.cursor code).rest = none := by rw [ended]; rfl
    rw [fetchImmediate, fetchByte_none byte_at, readImmediate_none read, ← ended]
    exact .fail code .codeOverrun machine
  | some head =>
    have inside := pc_lt byte_at
    have rest := cursor_rest_cons byte_at
    rw [fetchImmediate, fetchByte_some fits byte_at, ok_bind]
    by_cases short : head.toNat < Operand.firstHead
    · simp only [if_pos short]
      refine ⟨_, _, rfl, readImmediate_some ?_, .within (Nat.le_succ _) inside rfl⟩
      rw [rest]
      exact Operand.read?_short short
    · simp only [if_neg short]
      by_cases enough : machine.pc + 1 + Operand.magnitudeLength head ≤ code.length
      · rw [fetchBytes_ok fits _ enough]
        refine ⟨_, _, rfl, readImmediate_some ?_, .within (by simp only; omega) enough rfl⟩
        rw [rest, Operand.read?_long short (by rw [List.length_drop]; omega), List.drop_drop]
      · have read : Operand.read? (machine.cursor code).rest = none := by
          rw [rest]
          exact Operand.read?_truncated short (by rw [List.length_drop]; omega)
        have ended : code.drop code.length = [] := List.drop_length
        have forward : Forward code machine { machine with pc := code.length } :=
          .within (Nat.le_of_lt inside) (Nat.le_refl _) rfl
        rw [fetchBytes_fault fits { machine with pc := machine.pc + 1 } inside (by simp only; omega),
          readImmediate_none read, ← ended]
        exact .after forward (.fail code .codeOverrun _)

end Machine

open Machine

/-- On machines with so many opcodes under way and a position not below their number, the checked
action follows the action on the cursor. -/
def Machine.Tracks {α : Type} (code : Bytes) (depth : Nat)
    (checked : Machine → Checked (Except Fault α × Machine))
    (action : Cursor → Except Fault α × Cursor) : Prop :=
  ∀ machine, machine.depth = depth → depth ≤ machine.pc →
    Follows code machine (checked machine) (action (machine.cursor code))

variable {code : Bytes} {depth : Nat}

theorem Machine.Tracks.after {α : Type} {checked : Machine → Checked (Except Fault α × Machine)}
    {action : Cursor → Except Fault α × Cursor} (tracked : Tracks code depth checked action)
    {start stop : Machine} (forward : Forward code start stop) (same : start.depth = depth)
    (le_pc : depth ≤ start.pc) :
    Follows code start (checked stop) (action (stop.cursor code)) :=
  Follows.after forward
    (tracked stop (forward.depth_eq.trans same) (Nat.le_trans le_pc forward.le_pc))

theorem Procedure.map_immediate {α β : Type} (f : α → β) (next : Int32 → Procedure α) :
    f <$> immediate next = immediate fun n => f <$> next n := rfl

theorem Procedure.map_operand {α β : Type} (f : α → β) (next : Value → Procedure α) :
    f <$> operand next = operand fun v => f <$> next v := rfl

/-- A procedure that cannot trap by itself is run without a trap. -/
theorem Procedure.tracks_checkedRun {α : Type} (fits : code.length < wordSize)
    {checked : Machine → Checked (Except Fault Value × Machine)}
    {evaluate : Cursor → Except Fault Value × Cursor} (evaluated : Tracks code depth checked evaluate)
    (procedure : Procedure α) :
    Tracks code depth ((.ok <$> procedure : Procedure (Checked α)).checkedRun code checked)
      (procedure.run evaluate) := by
  induction procedure with
  | done result => exact fun machine _ _ => ⟨_, _, rfl, rfl, .refl code machine⟩
  | fail fault => exact fun machine _ _ => .fail code fault machine
  | immediate next ih =>
    intro machine same le_pc
    obtain ⟨result, stop, fetched, read, forward⟩ := follows_fetchImmediate fits machine
    simp only [map_immediate, checkedRun, run, fetched, read, ok_bind]
    cases result with
    | ok n => exact (ih n).after forward same le_pc
    | error fault => exact ⟨_, _, rfl, rfl, forward⟩
  | operand next ih =>
    intro machine same le_pc
    obtain ⟨result, stop, checked_eq, evaluated_eq, forward⟩ := evaluated machine same le_pc
    simp only [map_operand, checkedRun, run, checked_eq, evaluated_eq, ok_bind]
    cases result with
    | ok v => exact (ih v).after forward same le_pc
    | error fault => exact ⟨_, _, rfl, rfl, forward⟩
  | draw sample next ih =>
    intro machine same le_pc
    have drawn : Forward code machine { machine with generator := (sample machine.generator).2 } :=
      ⟨Nat.le_refl _, Nat.le_max_left _ _, rfl⟩
    exact .after drawn (ih _ _ same le_pc)

/-- The byte of an expression has been fetched before an opcode is started, so that the position is
beyond the counter. -/
theorem Machine.tracks_fetchExpression (fits : code.length < wordSize)
    {checked : UInt8 → Machine → Checked (Except Fault Value × Machine)}
    {opcode : UInt8 → Cursor → Except Fault Value × Cursor}
    (tracked : ∀ byte machine, machine.depth = depth → depth < machine.pc → machine.pc ≤ code.length →
      Follows code machine (checked byte machine) (opcode byte (machine.cursor code))) :
    Tracks code depth (fetchExpression code checked) (readExpression opcode) := by
  intro machine same le_pc
  cases byte_at : code[machine.pc]? with
  | none =>
    have ended := cursor_rest_nil byte_at
    rw [fetchExpression, fetchByte_none byte_at, readExpression_nil ended]
    exact .fail code .codeOverrun machine
  | some byte =>
    have inside := pc_lt byte_at
    have rest := cursor_rest_cons byte_at
    have forward : Forward code machine { machine with pc := machine.pc + 1 } :=
      .within (Nat.le_succ _) inside rfl
    rw [fetchExpression, fetchByte_some fits byte_at, ok_bind]
    by_cases compact : compactBase ≤ byte
    · rw [readExpression_compact rest compact]
      simp only [if_pos compact, checkedCompactValue_eq, ok_bind]
      exact ⟨_, _, rfl, rfl, forward⟩
    · rw [readExpression_opcode rest compact]
      simp only [if_neg compact]
      exact .after forward (tracked byte _ same (Nat.lt_succ_of_le le_pc) inside)

/-- Where the limit leaves room, the counter stays within the position. -/
theorem Machine.follows_nested (fits : code.length < wordSize) {limit : Nat}
    {checked : Machine → Checked (Except Fault Value × Machine)}
    {action : Cursor → Except Fault Value × Cursor} (room : depth < limit)
    (tracked : Tracks code (depth + 1) checked action) {machine : Machine}
    (same : machine.depth = depth) (lt_pc : depth < machine.pc) (inside : machine.pc ≤ code.length) :
    Follows code machine (nested limit checked machine)
      (Cursor.nested action (machine.cursor code)) := by
  subst same
  obtain ⟨result, stop, checked_eq, action_eq, forward⟩ :=
    tracked { machine with depth := machine.depth + 1 } rfl lt_pc
  have counted : stop.depth = machine.depth + 1 := forward.depth_eq
  -- The counter is within the position and the position within the code, so that it fits a word.
  have small : machine.depth + 1 < wordSize := Nat.lt_of_le_of_lt (Nat.le_trans lt_pc inside) fits
  refine ⟨result, { stop with depth := stop.depth - 1 }, ?_, ?_, forward.le_pc, forward.pc_le, ?_⟩
  · rw [nested, word_ok small, ok_bind, if_neg (Nat.not_lt.2 room), checked_eq, ok_bind]
    simp only [difference_ok (counted ▸ Nat.le_add_left 1 machine.depth), ok_bind]
  · have inner : action { machine.cursor code with depth := (machine.cursor code).depth + 1 } =
        (result, stop.cursor code) := action_eq
    rw [Cursor.nested, inner]
    rfl
  · rw [counted, Nat.add_sub_cancel]

/-- Beyond the limit the counter goes up and down again. -/
theorem Machine.follows_nested_tooDeep (fits : code.length < wordSize) {limit : Nat}
    {checked : Machine → Checked (Except Fault Value × Machine)} {machine : Machine}
    (full : limit ≤ machine.depth) (lt_pc : machine.depth < machine.pc)
    (inside : machine.pc ≤ code.length) :
    Follows code machine (nested limit checked machine) ((machine.cursor code).fail .tooDeep) := by
  have small : machine.depth + 1 < wordSize := Nat.lt_of_le_of_lt (Nat.le_trans lt_pc inside) fits
  rw [nested, word_ok small, ok_bind, if_pos (Nat.lt_succ_of_le full),
    difference_ok (Nat.le_add_left _ _), ok_bind, Nat.add_sub_cancel]
  exact .fail code .tooDeep machine

section
variable (world : World) (frame : Frame)

theorem tracks_checkedDispatch (fits : code.length < wordSize)
    {checked : Machine → Checked (Except Fault Value × Machine)}
    {evaluate : Cursor → Except Fault Value × Cursor}
    (evaluated : Tracks code (depth + 1) checked evaluate) (byte : UInt8) :
    Tracks code (depth + 1) (checkedDispatch world frame code checked byte)
      (dispatch world frame evaluate byte) := by
  intro machine same le_pc
  rw [checkedDispatch, dispatch]
  cases Opcode.ofByte? byte with
  | none => exact .fail code .invalidOpcode machine
  | some opcode =>
    simp only [difference_ok (Nat.le_trans (Nat.le_add_left 1 depth) le_pc), ok_bind,
      opcode.checkedHandler_eq]
    exact (opcode.handler world frame).tracks_checkedRun fits evaluated machine same le_pc

/-- The evaluator on a machine never traps and follows the evaluator on the cursor. -/
theorem tracks_checkedEvaluate (fits : code.length < wordSize) {limit room : Nat}
    (left : limit - depth = room) :
    Tracks code depth (checkedEvaluate world frame code limit room) (evaluate world frame room) := by
  induction room generalizing depth with
  | zero =>
    refine tracks_fetchExpression fits fun byte machine same lt_pc inside => ?_
    subst same
    exact follows_nested_tooDeep fits (by omega) lt_pc inside
  | succ room ih =>
    refine tracks_fetchExpression fits fun byte machine same lt_pc inside => ?_
    have deeper : limit - (depth + 1) = room := by omega
    exact follows_nested fits (by omega) (tracks_checkedDispatch world frame fits (ih deeper) byte)
      same lt_pc inside

end

/-! ## The engine on a machine -/

namespace Engine

variable {α : Type}

/-- Runs a checked procedure on a machine at the frame's position, and takes over where it stopped. -/
def checkedPerform (engine : Engine) (frame : Frame) (procedure : Procedure (Checked α)) :
    Checked (Except Fault α × Frame × Engine) := do
  let code := engine.functionCode frame
  let limit := engine.settings.maxDepth
  let (result, stop) ← procedure.checkedRun code
    (checkedEvaluate engine.toWorld frame code limit (limit - engine.depth))
    ⟨frame.pc, engine.depth, engine.generator, engine.lastFault⟩
  .ok (result, { frame with pc := stop.pc },
    { engine with depth := stop.depth, generator := stop.generator, lastFault := stop.lastFault })

/-- With no opcode under way the machine does what the engine does. -/
theorem checkedPerform_eq {engine : Engine} {frame : Frame} (idle : engine.depth = 0)
    (fits : (engine.functionCode frame).length < wordSize) (procedure : Procedure α) :
    engine.checkedPerform frame (.ok <$> procedure) = .ok (engine.perform frame procedure) := by
  have there : engine.cursor frame = Machine.cursor (engine.functionCode frame)
      ⟨frame.pc, engine.depth, engine.generator, engine.lastFault⟩ := by
    rw [cursor, World.code_eq_drop]
    rfl
  have evaluated := tracks_checkedEvaluate engine.toWorld frame fits
    (rfl : engine.settings.maxDepth - engine.depth = _)
  obtain ⟨result, stop, checked_eq, plain_eq, forward⟩ := procedure.tracks_checkedRun fits evaluated
    ⟨frame.pc, engine.depth, engine.generator, engine.lastFault⟩ rfl (idle ▸ Nat.zero_le _)
  -- The engine moves the frame by the code that was read, and the machine has counted it.
  have moved : frame.pc + ((engine.cursor frame).rest.length -
      (stop.cursor (engine.functionCode frame)).rest.length) = stop.pc := by
    have le_pc := forward.le_pc
    have pc_le := forward.pc_le
    simp only [there, Machine.cursor, List.length_drop] at le_pc pc_le ⊢
    omega
  simp only [checkedPerform, checked_eq, ok_bind, perform, move]
  rw [← there] at plain_eq
  rw [plain_eq, moved]
  rfl

/-- No evaluation traps. An engine with no opcode under way, whatever its image, its values, its packet,
its heap and its limit on nesting are, does on a machine what it does without one, on every frame and
wherever the frame stands in code that fits the address space. That goes for every procedure that it
runs on the operands there, and an evaluation is nothing else; only the one that hands out bytes has a
partial operation of its own, which cuts off the packet's payload. The operators do not trap on any
values, and the number formats that can be made do not on any data. -/
theorem evaluation_never_traps :
    (∀ (engine : Engine) (frame : Frame), engine.depth = 0 →
      (engine.functionCode frame).length < wordSize →
      (∀ (α : Type) (procedure : Procedure α),
        engine.checkedPerform frame (.ok <$> procedure) = .ok (engine.perform frame procedure)) ∧
      engine.checkedPerform frame (Procedure.checkedBufferBytes engine.toWorld) =
        .ok (engine.evalBufferBytes frame)) ∧
    (EveryEvaluation fun _ evaluation => ∃ procedure : World → Procedure _,
      ∀ (engine : Engine) (frame : Frame),
        evaluation engine frame = engine.perform frame (procedure engine.toWorld)) ∧
    (∀ (operator : UnaryOp) (v : Value), operator.checkedApply v = .ok (operator.apply v)) ∧
    (∀ (operator : BinaryOp) (a b : Value), operator.checkedApply a b = .ok (operator.apply a b)) ∧
    (∀ (kind : NumberKind) (shift : Nat),
      NumberFormat.checkedNew kind shift = .ok (NumberFormat.new kind shift)) ∧
    (∀ number : Nat, NumberFormat.checkedOfNat number = .ok (NumberFormat.ofNat number)) ∧
    (∀ (kind : NumberKind) (shift : Nat) (format : NumberFormat),
      NumberFormat.new kind shift = .ok format → ∀ (data : Bytes) (offset : Nat),
        data.length < wordSize →
        kind.checkedRead shift data offset = .ok (format.read data offset)) ∧
    (∀ (number : Nat) (format : NumberFormat), NumberFormat.ofNat number = .ok format →
      ∀ (data : Bytes) (offset : Nat), data.length < wordSize →
        format.kind.checkedRead format.shift data offset = .ok (format.read data offset)) := by
  refine ⟨fun engine frame idle fits => ⟨fun _ => checkedPerform_eq idle fits, ?_⟩,
    .of_perform fun _ procedure => ⟨procedure, fun _ _ => rfl⟩, UnaryOp.checkedApply_eq,
    BinaryOp.checkedApply_eq, NumberFormat.checkedNew_eq, NumberFormat.checkedOfNat_eq,
    fun kind shift format made data offset addressed => ?_,
    fun _ format _ _ _ addressed => format.checkedRead_eq (.inr addressed)⟩
  · rw [Procedure.checkedBufferBytes_eq]
    exact checkedPerform_eq idle fits _
  · obtain ⟨rfl, rfl⟩ := NumberFormat.eq_of_new made
    exact format.checkedRead_eq (.inr addressed)

/-- The least integer divided by minus one, under the largest limit that fits a word, and the reading
of a number beyond the end of the data. -/
theorem evaluation_never_traps_least :
    let code := Assembler.opcode (.binary .idiv) ++ Assembler.opcode .literal ++
      [0xFF, 0x80, 0, 0, 0] ++ Assembler.integer (-1)
    let image := { Image.empty with functions := #[⟨"main", 0, 0, code⟩] }
    let engine := start image ⟨wordSize - 1, none⟩ 0
    let frame : Frame := ⟨0, 0, #[], #[], 0⟩
    (∃ after, engine.checkedPerform frame (.ok <$> Procedure.value) =
      .ok (.ok (.int Int32.minValue), after)) ∧
      NumberKind.checkedRead ⟨.float, 3⟩ 15 [1, 2] (wordSize - 1) = .ok .nan := by
  intro code image engine frame
  obtain ⟨evaluated, -, -, -, -, -, reads, -⟩ := evaluation_never_traps
  have value := (evaluated engine frame rfl (by decide)).1 Value .value
  exact ⟨⟨_, value⟩, reads ⟨.float, 3⟩ 15 _ rfl [1, 2] (wordSize - 1) (by decide)⟩

end Engine

end NodeScript
