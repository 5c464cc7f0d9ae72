import NodeScript.Proofs.DepthCounter
import NodeScript.Proofs.FramePosition
import NodeScript.Proofs.OpcodeMeaning

/-!
# Evaluating the code of trees

The code of a tree is evaluated to what the tree means, wherever the code stands and whatever comes
after it. The code implements the meaning: procedures by induction on what they ask for, trees by
induction on the tree, and lists of trees one after another.
-/
namespace NodeScript

variable {α β : Type}

namespace Sampling

/-- Where code with this outcome leads: from `start` to `rest` where it succeeds. A fault is recorded
and leads no further than that. -/
def Leads (start : Cursor) (rest : Bytes) :
    Except Fault α × Generator → Except Fault α × Cursor → Prop
  | (.ok a, generator), reached => reached = (.ok a, { start with rest, generator })
  | (.error fault, generator), reached => ∃ left, rest <:+ left ∧
      reached = (.error fault, { start with rest := left, generator, lastFault := some fault })

/-- At this depth the action reads the code, whatever comes after it, and has the outcome that the
meaning has. -/
def Implements (depth : Nat) (action : Cursor → Except Fault α × Cursor) (code : Bytes)
    (meaning : Sampling α) : Prop :=
  ∀ start rest, start.depth = depth → start.rest = code ++ rest →
    Leads start rest (meaning start.generator) (action start)

/-- Where code leads does not depend on the code that was read and the samples that were drawn before
it. -/
theorem Leads.of_moved {start : Cursor} {code rest : Bytes} {generator : Generator}
    {outcome : Except Fault α × Generator} {reached : Except Fault α × Cursor}
    (h : Leads { start with rest := code, generator } rest outcome reached) :
    Leads start rest outcome reached := by
  obtain ⟨_ | _, _⟩ := outcome
  · exact h
  · exact h

theorem Leads.nested {start : Cursor} {rest : Bytes} {outcome : Except Fault α × Generator}
    {action : Cursor → Except Fault α × Cursor}
    (h : Leads { start with depth := start.depth + 1 } rest outcome
      (action { start with depth := start.depth + 1 })) :
    Leads start rest outcome (Cursor.nested action start) := by
  rw [Cursor.nested]
  obtain ⟨fault | a, generator⟩ := outcome
  · obtain ⟨left, suffix, reached⟩ := h
    rw [reached]
    exact ⟨left, suffix, rfl⟩
  · have reached : action { start with depth := start.depth + 1 } =
        (.ok a, { start with rest, depth := start.depth + 1, generator }) := h
    rw [reached]
    rfl

variable {depth : Nat}

private theorem implements_done (a : α) :
    Implements depth (fun cursor => (.ok a, cursor)) [] (.of (.ok a)) := by
  intro start rest _ code
  have : start.rest = rest := code
  subst this
  rfl

private theorem implements_fail (fault : Fault) (code : Bytes) :
    Implements depth (Cursor.fail fault) code (.of (.error fault : Except Fault α)) :=
  fun start _ _ whole => ⟨start.rest, whole ▸ List.suffix_append _ _, rfl⟩

end Sampling

open Sampling

namespace Procedure

variable {evaluate : Cursor → Except Fault Value × Cursor} {depth : Nat}

/-- The code of an immediate operand, if there is one. -/
def immediateCode : Option Int32 → Bytes
  | some n => Operand.write n
  | none => []

/-- A procedure does on code what it does on what the code means. -/
theorem HasShape.implements {procedure : Procedure α} {due : Bool} {count : Nat}
    (shape : procedure.HasShape due count) {immediate? : Option Int32}
    {operands : List (Bytes × Sampling Value)} (shaped : immediate?.isSome = due)
    (fits : operands.length = count)
    (each : ∀ operand ∈ operands, Implements depth evaluate operand.1 operand.2) :
    Implements depth (procedure.run evaluate)
      (immediateCode immediate? ++ (operands.map Prod.fst).flatten)
      (procedure.answered immediate? (operands.map Prod.snd)) := by
  induction shape generalizing immediate? operands with
  | done result =>
    obtain rfl := List.length_eq_zero_iff.1 fits
    obtain rfl := Option.isNone_iff_eq_none.1 (Option.isSome_eq_false_iff.1 shaped)
    exact implements_done result
  | @fail fault immediate count raised =>
    have answers : (Procedure.fail fault : Procedure α).answered immediate?
        (operands.map Prod.snd) = Sampling.of (.error fault) := by
      rw [answered]
    rw [answers]
    exact implements_fail fault _
  | @immediate next count later ih =>
    obtain ⟨n, rfl⟩ := Option.isSome_iff_exists.1 shaped
    intro start rest deep code
    have read : start.readImmediate =
        (.ok n, { start with rest := (operands.map Prod.fst).flatten ++ rest }) := by
      refine Cursor.readImmediate_some ?_
      rw [code, List.append_assoc]
      exact Operand.read?_write n _
    simp only [run, read, answered]
    have led := @ih n none operands rfl fits each
      { start with rest := (operands.map Prod.fst).flatten ++ rest } rest deep rfl
    exact led.of_moved
  | @operand next count later ih =>
    obtain rfl := Option.isNone_iff_eq_none.1 (Option.isSome_eq_false_iff.1 shaped)
    obtain ⟨first, others, rfl⟩ := List.exists_cons_of_length_eq_add_one fits
    intro start rest deep code
    have led := each first List.mem_cons_self start ((others.map Prod.fst).flatten ++ rest) deep
      (by rw [code, immediateCode]; simp)
    simp only [run, answered, List.map_cons, andThen]
    cases outcome : first.2 start.generator with
    | mk result generator =>
      rw [outcome] at led
      cases result with
      | ok v =>
        have evaluated : evaluate start = (.ok v, { start with
          rest := (others.map Prod.fst).flatten ++ rest, generator }) := led
        rw [evaluated]
        have later_led := @ih v none others rfl (Nat.succ.inj fits)
          (fun operand mem => each operand (.tail _ mem))
          { start with rest := (others.map Prod.fst).flatten ++ rest, generator } rest deep rfl
        exact later_led.of_moved
      | error fault =>
        obtain ⟨left, suffix, evaluated⟩ := led
        rw [evaluated]
        exact ⟨left, (List.suffix_append _ _).trans suffix, rfl⟩
  | @draw sample next count later ih =>
    intro start rest deep code
    rw [run_draw]
    have led := ih (sample start.generator).1 shaped fits each
      { start with generator := (sample start.generator).2 } rest deep code
    exact led.of_moved

end Procedure

open Procedure

variable (world : World) (frame : Frame) (limit : Nat)

/-- An opcode whose operands stand behind it is run on what they mean, if it is not one too many. -/
theorem Opcode.implements (opcode : Opcode) (immediate? : Option Int32)
    (operands : List (Bytes × Sampling Value)) (depth : Nat)
    (shaped : immediate?.isSome = opcode.hasImmediate) (fits : operands.length = opcode.arity)
    (each : ∀ operand ∈ operands,
      Implements (depth + 1) (evaluateWithin world frame limit) operand.1 operand.2) :
    Implements depth (evaluateWithin world frame limit)
      (opcode.toByte :: (immediateCode immediate? ++ (operands.map Prod.fst).flatten))
      (if limit < depth + 1 then .of (.error .tooDeep)
        else opcode.eval world frame immediate? (operands.map Prod.snd)) := by
  intro start rest deep code
  subst deep
  by_cases room : start.depth < limit
  · rw [if_neg (by omega), evaluateWithin_opcode world frame limit code (ofByte?_toByte opcode) room]
    have led := (handler_shape world frame opcode).implements shaped fits each
      { start with
        rest := immediateCode immediate? ++ (operands.map Prod.fst).flatten ++ rest
        depth := start.depth + 1 } rest rfl rfl
    rw [answered_handler shaped (by rw [List.length_map, fits])] at led
    exact (Leads.nested led).of_moved
  · rw [if_pos (by omega), evaluateWithin_eq, Cursor.readExpression_opcode code
      (not_compact_of_ofByte? (ofByte?_toByte opcode)), if_neg room]
    exact ⟨_, List.suffix_append _ _, rfl⟩

namespace Expression

theorem code_apply (opcode : Opcode) (immediate? : Option Int32)
    (shaped : immediate?.isSome = opcode.hasImmediate) (operands : Fin opcode.arity → Expression) :
    (apply opcode immediate? shaped operands).code = opcode.toByte ::
      (immediateCode immediate? ++ (List.ofFn fun i => (operands i).code).flatten) := by
  cases immediate? with
  | none => rfl
  | some n => rfl

/-- The code of a tree is evaluated to what the tree means. -/
theorem implements (tree : Expression) (depth : Nat) :
    Implements depth (evaluateWithin world frame limit) tree.code
      (tree.eval world frame limit depth) := by
  induction tree generalizing depth with
  | integer n =>
    cases written : compactByte? n with
    | some byte =>
      obtain ⟨compact, value⟩ := compactValue_of_compactByte? written
      intro start rest _ code
      rw [Expression.code, Assembler.integer, written] at code
      rw [evaluateWithin_eq, Cursor.readExpression_compact code compact, value, eval, if_neg]
      · rfl
      · rintro ⟨outside, -⟩
        rw [compactByte?_eq_none_iff.2 outside] at written
        cases written
    | none =>
      have node := Opcode.implements world frame limit .literal (some n) [] depth rfl rfl
        fun _ mem => absurd mem List.not_mem_nil
      rw [immediateCode, List.map_nil, List.flatten_nil, List.append_nil] at node
      rw [Expression.code, Assembler.integer, written, eval]
      simp only [compactByte?_eq_none_iff.1 written, true_and]
      exact node
  | apply opcode immediate? shaped operands ih =>
    have node := Opcode.implements world frame limit opcode immediate? (List.ofFn fun i =>
      ((operands i).code, (operands i).eval world frame limit (depth + 1))) depth shaped
      List.length_ofFn
    rw [List.map_ofFn, List.map_ofFn] at node
    rw [code_apply]
    refine node fun operand mem => ?_
    obtain ⟨i, rfl⟩ := List.mem_ofFn.1 mem
    exact ih i (depth + 1)

theorem codes_cons (tree : Expression) (trees : List Expression) :
    codes (tree :: trees) = tree.code ++ codes trees := rfl

theorem length_codes_take_cons_le (tree : Expression) (trees : List Expression) (count : Nat) :
    (codes ((tree :: trees).take count)).length ≤
      tree.code.length + (codes (trees.take (count - 1))).length := by
  cases count with
  | zero => exact Nat.zero_le _
  | succ count =>
    rw [List.take_succ_cons, codes_cons, List.length_append]
    exact Nat.le_refl _

/-- What a tree means does not depend on the frame's position. -/
theorem eval_pc (tree : Expression) (pc depth : Nat) :
    tree.eval world { frame with pc } limit depth = tree.eval world frame limit depth := by
  induction tree generalizing depth with
  | integer n => rfl
  | apply opcode immediate? shaped operands ih =>
    have same : opcode.rule world { frame with pc } immediate? =
        opcode.rule world frame immediate? := by
      cases opcode <;> rfl
    simp only [eval, Opcode.eval, ih, same]

theorem evalEach_pc (trees : List Expression) (pc depth : Nat) :
    evalEach world { frame with pc } limit depth trees = evalEach world frame limit depth trees := by
  funext generator
  induction trees generalizing generator with
  | nil => rfl
  | cons tree others ih => simp only [evalEach, eval_pc, ih]

end Expression

namespace Engine

/-- Evaluates so many expressions one after another, until one of them fails, and lists the results. -/
def evalValues : Nat → Engine → Frame → List (Except Fault Value) × Frame × Engine
  | 0, engine, frame => ([], frame, engine)
  | count + 1, engine, frame =>
    match engine.evalValue frame with
    | (.error fault, frame, engine) => ([.error fault], frame, engine)
    | (.ok v, frame, engine) =>
      let (results, frame, engine) := evalValues count engine frame
      (.ok v :: results, frame, engine)

variable {engine : Engine} {frame : Frame} {tree : Expression} {after : Bytes}

private theorem leads_of_code
    (code : (engine.functionCode frame).drop frame.pc = tree.code ++ after) :
    Leads (engine.cursor frame) after
      (tree.eval engine.toWorld frame engine.settings.maxDepth engine.depth engine.generator)
      (evaluate engine.toWorld frame (engine.settings.maxDepth - engine.depth)
        (engine.cursor frame)) :=
  tree.implements engine.toWorld frame engine.settings.maxDepth engine.depth (engine.cursor frame)
    after rfl ((engine.cursor_rest frame).trans code)

theorem evalValue_ok_of_code {v : Value} {generator : Generator}
    (code : (engine.functionCode frame).drop frame.pc = tree.code ++ after)
    (h : tree.eval engine.toWorld frame engine.settings.maxDepth engine.depth engine.generator =
      (.ok v, generator)) :
    engine.evalValue frame =
      (.ok v, { frame with pc := frame.pc + tree.code.length }, { engine with generator }) := by
  have led := leads_of_code code
  rw [h] at led
  rw [evalValue_eq_move]
  exact move_of_taken code led

theorem evalValue_error_of_code {fault : Fault} {generator : Generator}
    (code : (engine.functionCode frame).drop frame.pc = tree.code ++ after)
    (h : tree.eval engine.toWorld frame engine.settings.maxDepth engine.depth engine.generator =
      (.error fault, generator)) :
    ∃ pc ≤ frame.pc + tree.code.length, frame.pc ≤ pc ∧ engine.evalValue frame =
      (.error fault, { frame with pc }, { engine with generator, lastFault := some fault }) := by
  have led := leads_of_code code
  rw [h] at led
  obtain ⟨left, suffix, reached⟩ := led
  have longer := suffix.length_le
  refine ⟨frame.pc + ((engine.cursor frame).rest.length - left.length), ?_, Nat.le_add_right _ _, ?_⟩
  · rw [cursor_rest, code, List.length_append]
    omega
  · simp only [evalValue_eq_move, move, reached]
    rfl

/-- Evaluation refines the meaning of trees. Where the code of trees stands in a function, whatever is
before and after it, evaluating the expressions there one after another gives the values that the
trees have up to the first fault, with the same samples drawn. Nothing else changes but the position,
which is behind the trees where none of them fails and otherwise within the one that fails, and the
most recent fault. -/
theorem evalValues_codes (engine : Engine) (frame : Frame) (function : Function)
    (trees : List Expression) (before after : Bytes)
    (found : engine.image.function? frame.function = some function)
    (code : function.code = before ++ Expression.codes trees ++ after)
    (position : frame.pc = before.length) :
    let meaning := Expression.evalEach engine.toWorld frame engine.settings.maxDepth engine.depth
      trees engine.generator
    ∃ pc, engine.evalValues trees.length frame = (meaning.1, { frame with pc },
        { engine with
          generator := meaning.2
          lastFault := (Expression.fault? meaning.1).or engine.lastFault }) ∧
      frame.pc + (Expression.codes (trees.take (meaning.1.length - 1))).length ≤ pc ∧
      pc ≤ frame.pc + (Expression.codes (trees.take meaning.1.length)).length ∧
      (Expression.fault? meaning.1 = none → pc = frame.pc + (Expression.codes trees).length) := by
  induction trees generalizing engine frame before with
  | nil => exact ⟨frame.pc, rfl, Nat.le_refl _, Nat.le_add_right _ _, fun _ => rfl⟩
  | cons tree others ih =>
    rw [Expression.codes_cons] at code
    have first : (engine.functionCode frame).drop frame.pc =
        tree.code ++ (Expression.codes others ++ after) := by
      rw [World.functionCode, found, position]
      simp only [code, List.append_assoc, List.drop_left]
    cases meant : tree.eval engine.toWorld frame engine.settings.maxDepth engine.depth
      engine.generator with
    | mk result generator =>
      cases result with
      | error fault =>
        obtain ⟨pc, le, ge, evaluated⟩ := evalValue_error_of_code first meant
        simp only [Expression.evalEach, meant, List.length_cons, evalValues, evaluated]
        refine ⟨pc, rfl, ?_, ?_, fun none_failed => ?_⟩
        · simpa [Expression.codes] using ge
        · simpa [Expression.codes] using le
        · cases none_failed
      | ok v =>
        have evaluated := evalValue_ok_of_code first meant
        obtain ⟨pc, others_evaluated, ge, le, done⟩ := ih { engine with generator }
          { frame with pc := frame.pc + tree.code.length } (before ++ tree.code) found
          (by simp only [code, List.append_assoc])
          (by rw [List.length_append, position])
        simp only [Expression.evalEach_pc] at others_evaluated ge le done
        simp only [Expression.evalEach, meant, List.length_cons, evalValues, evaluated,
          others_evaluated, List.take_succ_cons, Expression.codes_cons, List.length_append,
          Nat.add_sub_cancel]
        have shorter := Expression.length_codes_take_cons_le tree others
          (Expression.evalEach engine.toWorld frame engine.settings.maxDepth engine.depth others
            generator).1.length
        refine ⟨pc, rfl, by omega, by omega, fun none_failed => ?_⟩
        rw [done none_failed]
        omega

/-- A compact literal and a longer one combine to a value, a local variable that the frame does not
have is a fault, and a third tree is not evaluated any more. -/
theorem evalValues_codes_missing_local :
    let union := Expression.apply (.binary .bitOr) none rfl
      fun i => .integer (if i.val = 0 then 1 else 1000)
    let missing := Expression.apply .loadLocal (some 5) rfl Fin.elim0
    let trees := [union, missing, .integer 7]
    let function : Function := ⟨"main", 0, 0, [0] ++ Expression.codes trees ++ [0]⟩
    let engine := Engine.start { Image.empty with functions := #[function] } .standard 0
    (engine.evalValues 3 ⟨0, 1, #[], #[], 0⟩).1 =
      [.ok (.int 1001), .error .localOutOfRange] := by
  intro union missing trees function engine
  obtain ⟨pc, evaluated, -⟩ :=
    evalValues_codes engine ⟨0, 1, #[], #[], 0⟩ function trees [0] [0] rfl rfl rfl
  rw [show trees.length = 3 from rfl] at evaluated
  rw [evaluated]
  rfl

end Engine
end NodeScript
