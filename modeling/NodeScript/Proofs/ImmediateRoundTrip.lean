import NodeScript.Proofs.FramePosition

/-!
# Immediate operands in a function's code

Operands that are written one after another are fetched one after another, whatever stands before and
after them in the code. Code that ends inside an operand is an overrun, and read to its end.
-/
namespace NodeScript
namespace Engine

/-- Fetches so many immediate operands one after another and lists what comes of each. -/
def fetchImmediates : Nat → Engine → Frame → List (Except Fault Int32) × Frame × Engine
  | 0, engine, frame => ([], frame, engine)
  | count + 1, engine, frame =>
    let (result, frame, engine) := engine.fetchImmediate frame
    let (results, frame, engine) := fetchImmediates count engine frame
    (result :: results, frame, engine)

variable {engine : Engine} {frame : Frame}

theorem fetchImmediate_of_read? {n : Int32} {taken after : Bytes}
    (code : (engine.functionCode frame).drop frame.pc = taken ++ after)
    (read : Operand.read? (taken ++ after) = some (n, after)) :
    engine.fetchImmediate frame =
      (.ok n, { frame with pc := frame.pc + taken.length }, engine) := by
  rw [← code, ← cursor_rest] at read
  exact move_of_taken code (Cursor.readImmediate_some read)

theorem fetchImmediate_of_read?_eq_none
    (cut : Operand.read? ((engine.functionCode frame).drop frame.pc) = none) :
    engine.fetchImmediate frame = (.error .codeOverrun,
      { frame with pc := frame.pc + ((engine.functionCode frame).drop frame.pc).length },
      engine.fail .codeOverrun) := by
  rw [← cursor_rest] at cut
  exact move_of_taken (List.append_nil _).symm (Cursor.readImmediate_none cut)

theorem fetchImmediate_of_code {n : Int32} {after : Bytes}
    (code : (engine.functionCode frame).drop frame.pc = Operand.write n ++ after) :
    engine.fetchImmediate frame =
      (.ok n, { frame with pc := frame.pc + (Operand.write n).length }, engine) :=
  fetchImmediate_of_read? code (Operand.read?_write n after)

theorem fetchImmediate_overrun (inside : frame.pc ≤ (engine.functionCode frame).length)
    (cut : Operand.read? ((engine.functionCode frame).drop frame.pc) = none) :
    engine.fetchImmediate frame =
      (.error .codeOverrun, { frame with pc := (engine.functionCode frame).length },
        engine.fail .codeOverrun) := by
  have behind : frame.pc + ((engine.functionCode frame).drop frame.pc).length =
      (engine.functionCode frame).length := by
    rw [List.length_drop]
    omega
  rw [fetchImmediate_of_read?_eq_none cut, behind]

/-- Fetching goes on behind the operands that stand at the frame's position. -/
theorem fetchImmediates_add {ns : List Int32} {after : Bytes} (count : Nat)
    (code : (engine.functionCode frame).drop frame.pc = ns.flatMap Operand.write ++ after) :
    fetchImmediates (ns.length + count) engine frame =
      let (results, stop) := fetchImmediates count engine
        { frame with pc := frame.pc + (ns.flatMap Operand.write).length }
      (ns.map .ok ++ results, stop) := by
  induction ns generalizing frame with
  | nil => simp
  | cons n ns ih =>
    rw [List.flatMap_cons, List.append_assoc] at code
    have behind : (engine.functionCode frame).drop (frame.pc + (Operand.write n).length) =
        ns.flatMap Operand.write ++ after := by
      rw [← List.drop_drop, code, List.drop_left]
    have first := fetchImmediate_of_code code
    have others := @ih { frame with pc := frame.pc + (Operand.write n).length } behind
    rw [List.length_cons, Nat.add_right_comm, fetchImmediates, first]
    simp only [others, List.flatMap_cons, List.length_append, Nat.add_assoc]
    rfl

/-- Written operands are fetched back. On a frame at the first of them, whatever stands before it and
behind the last one, fetching once for each gives exactly the integers that were written, in order,
stops exactly behind the last one and changes nothing but the position. Where the code ends anywhere
inside a further operand, fetching that one fails as an overrun with the position at the end of the
code, and its fault is all that changes in the engine. -/
theorem fetchImmediates_written (engine : Engine) (frame : Frame) (function : Function)
    (before : Bytes) (ns : List Int32)
    (found : engine.image.function? frame.function = some function)
    (position : frame.pc = before.length) :
    (∀ after, function.code = before ++ ns.flatMap Operand.write ++ after →
      fetchImmediates ns.length engine frame =
        (ns.map .ok, { frame with pc := (before ++ ns.flatMap Operand.write).length }, engine)) ∧
    (∀ n cut, cut < (Operand.write n).length →
      function.code = before ++ ns.flatMap Operand.write ++ (Operand.write n).take cut →
      fetchImmediates (ns.length + 1) engine frame =
        (ns.map .ok ++ [.error .codeOverrun], { frame with pc := function.code.length },
          engine.fail .codeOverrun)) := by
  have functionCode : engine.functionCode frame = function.code := by
    rw [World.functionCode, found]
  have behind : frame.pc + (ns.flatMap Operand.write).length =
      (before ++ ns.flatMap Operand.write).length := by
    rw [position, List.length_append]
  have from_here : ∀ {after}, function.code = before ++ ns.flatMap Operand.write ++ after →
      (engine.functionCode frame).drop frame.pc = ns.flatMap Operand.write ++ after := by
    intro after code
    rw [functionCode, code, position, List.append_assoc, List.drop_left]
  constructor
  · intro after code
    have fetched := fetchImmediates_add 0 (from_here code)
    rw [behind] at fetched
    rw [← Nat.add_zero ns.length, fetched, fetchImmediates]
    simp only [List.append_nil]
  · intro n cut inside code
    have fetched := fetchImmediates_add 1 (from_here code)
    have inside_code : (before ++ ns.flatMap Operand.write).length ≤
        (engine.functionCode frame).length := by
      rw [functionCode, code]
      exact (List.prefix_append _ _).length_le
    have left : (engine.functionCode frame).drop (before ++ ns.flatMap Operand.write).length =
        (Operand.write n).take cut := by
      rw [functionCode, code, List.drop_left]
    have overrun := @fetchImmediate_overrun engine
      { frame with pc := (before ++ ns.flatMap Operand.write).length } inside_code
      (left ▸ Operand.read?_take_write inside)
    rw [behind] at fetched
    rw [fetched, fetchImmediates, overrun, ← functionCode]
    rfl

/-- The two integers at the boundary of the short form and the least one, between an opcode and a
literal, and the same code cut behind the head byte of the least integer. -/
theorem fetchImmediates_written_least :
    let operands := [247, 248, Int32.minValue].flatMap Operand.write
    let started := [247, 248].flatMap Operand.write ++ (Operand.write Int32.minValue).take 1
    let whole : Function := ⟨"whole", 0, 0, [5] ++ operands ++ [0x90]⟩
    let cut : Function := ⟨"cut", 0, 0, [5] ++ started⟩
    let engine := start { Image.empty with functions := #[whole, cut] } .standard 0
    (fetchImmediates 3 engine ⟨0, 1, #[], #[], 0⟩).1 =
        [.ok 247, .ok 248, .ok Int32.minValue] ∧
      (fetchImmediates 3 engine ⟨1, 1, #[], #[], 0⟩).1 =
        [.ok 247, .ok 248, .error .codeOverrun] := by
  intro operands started whole cut engine
  have fetched := (fetchImmediates_written engine ⟨0, 1, #[], #[], 0⟩ whole [5]
    [247, 248, Int32.minValue] rfl rfl).1 [0x90] rfl
  have overrun := (fetchImmediates_written engine ⟨1, 1, #[], #[], 0⟩ cut [5] [247, 248] rfl
    rfl).2 Int32.minValue 1 (by decide +kernel) rfl
  exact ⟨congrArg Prod.fst fetched, congrArg Prod.fst overrun⟩

end Engine
end NodeScript
