import NodeScript.Assembler
import NodeScript.Proofs.OperandSequence

/-!
# Random integers up to a bound

A random integer is drawn by rejection. A word is taken for the high half of its low half times the
number of integers to choose from, and refused where the low half of that product is small. What is
accepted is within the bound, every integer within the bound is accepted for some words, and the
integer that is handed out is the one of the first word that is accepted.
-/
namespace NodeScript

namespace Generator

/-! ## Drawing by rejection -/

/-- The sample of the first word that is accepted, and the generator when that word has been taken. -/
inductive Draws {α : Type} (accept : UInt64 → Option α) : Generator → α → Generator → Prop where
  | accepted {generator : Generator} {sample : α}
      (taken : accept generator.advance.word = some sample) :
      Draws accept generator sample generator.advance
  | refused {generator after : Generator} {sample : α}
      (refused : accept generator.advance.word = none)
      (later : Draws accept generator.advance sample after) : Draws accept generator sample after

section
variable {α : Type} {accept : UInt64 → Option α} {generator after : Generator} {sample : α}

theorem Draws.of_draw {ends : (accept home.word).isSome}
    (drawn : generator.draw accept ends = (sample, after)) : Draws accept generator sample after := by
  induction generator using draw.induct accept ends with
  | case1 generator other taken =>
    rw [draw.eq_def] at drawn
    split at drawn
    · next this found =>
      cases drawn
      exact .accepted found
    · next rejected =>
      rw [taken] at rejected
      cases rejected
  | case2 generator rejected _ ih =>
    rw [draw.eq_def] at drawn
    split at drawn
    · next this found =>
      rw [rejected] at found
      cases found
    · exact .refused rejected (ih drawn)

/-- The first word that is accepted ends the draw. -/
theorem Draws.of_next (draws : Draws accept generator sample after) {first : α}
    (taken : accept generator.advance.word = some first) :
    sample = first ∧ after = generator.advance := by
  cases draws with
  | accepted taken' => exact ⟨Option.some.inj (taken'.symm.trans taken), rfl⟩
  | refused refused => cases refused.symm.trans taken

/-- What comes out of a draw was accepted as the sample of some word. -/
theorem Draws.exists_word (draws : Draws accept generator sample after) :
    ∃ word, accept word = some sample := by
  induction draws with
  | accepted taken => exact ⟨_, taken⟩
  | refused _ _ ih => exact ih

end

/-! ## Words as integers below a count -/

section
variable {count k : Nat}

theorem below?_eq_some_iff {word : UInt64} : below? count word = some k ↔
    (halfRange - count) % count ≤ word.toNat % halfRange * count % halfRange ∧
      word.toNat % halfRange * count / halfRange = k := by
  simp only [below?, Option.ite_none_right_eq_some, Option.some.injEq]

theorem below?_lt {word : UInt64} (positive : 0 < count) (accepted : below? count word = some k) :
    k < count := by
  obtain ⟨-, rfl⟩ := below?_eq_some_iff.1 accepted
  have half := Nat.mod_lt word.toNat (show 0 < halfRange by decide)
  exact Nat.div_lt_of_lt_mul (Nat.mul_lt_mul_of_pos_right half positive)

/-- Among as many numbers in a row as the count there is one of its multiples. -/
theorem exists_multiple (positive : 0 < count) (least : Nat) :
    ∃ factor, least ≤ factor * count ∧ factor * count < least + count := by
  have divided := Nat.div_add_mod (least + (count - 1)) count
  have remainder := Nat.mod_lt (least + (count - 1)) positive
  rw [Nat.mul_comm] at divided
  exact ⟨(least + (count - 1)) / count, by omega, by omega⟩

/-- Every number below the count is what some words are accepted as. Of the products that have it as
their high half so few are refused that one of the others is a multiple of the count. -/
theorem exists_accepted_half (small : count ≤ halfRange) (within : k < count) :
    ∃ half < halfRange, ∀ word : UInt64, word.toNat % halfRange = half →
      below? count word = some k := by
  let refused := (halfRange - count) % count
  have few : refused ≤ halfRange - count := Nat.mod_le _ _
  obtain ⟨half, least, greatest⟩ :=
    exists_multiple (Nat.zero_lt_of_lt within) (halfRange * k + refused)
  obtain ⟨low, product⟩ := Nat.exists_eq_add_of_le (Nat.le_of_add_right_le least)
  have fits : low < halfRange := by omega
  refine ⟨half, ?_, ?_⟩
  · have bounded : half * count < halfRange * count :=
      calc half * count < halfRange * (k + 1) := by rw [Nat.mul_succ]; omega
        _ ≤ halfRange * count := Nat.mul_le_mul_left halfRange within
    exact Nat.lt_of_mul_lt_mul_right bounded
  · rintro word rfl
    have high : (halfRange * k + low) / halfRange = k := by
      rw [Nat.mul_add_div (by decide), Nat.div_eq_of_lt fits, Nat.add_zero]
    rw [below?_eq_some_iff, product, Nat.mul_add_mod, Nat.mod_eq_of_lt fits]
    exact ⟨by omega, high⟩

end

end Generator

open Generator

/-! ## The opcode -/

/-- The integers from zero to a positive bound are the natural numbers up to it. -/
theorem int32_ofNat_within {bound : Int32} (positive : 0 < bound) {k : Nat}
    (within : k ≤ bound.toNatClampNeg) :
    0 ≤ Int32.ofNat k ∧ Int32.ofNat k ≤ bound ∧ (Int32.ofNat k).toNatClampNeg = k := by
  have small := bound.toNatClampNeg_lt
  have cast : (Int32.ofNat k).toInt = k := Int32.toInt_ofNat_of_lt (Nat.lt_of_le_of_lt within small)
  have above : (0 : Int) < bound.toInt := Int32.lt_iff_toInt_lt.1 positive
  rw [Int32.toNatClampNeg] at within
  refine ⟨Int32.le_iff_toInt_le.2 ?_, Int32.le_iff_toInt_le.2 ?_, ?_⟩
  · rw [cast]
    exact Int.natCast_nonneg k
  · omega
  · rw [Int32.toNatClampNeg, cast, Int.toNat_natCast]

namespace Engine

variable {engine : Engine} {frame : Frame} {v : Value} {after : Frame × Engine}

theorem perform_draw {sample : Generator → Value × Generator} {generator : Generator}
    (sampled : sample engine.generator = (v, generator)) :
    engine.perform frame (.draw sample .done) = (.ok v, frame, { engine with generator }) := by
  have cursor : (engine.cursor frame).generator = engine.generator := rfl
  simp only [perform, move, Procedure.run, cursor, sampled, Nat.sub_self, Nat.add_zero]
  rfl

theorem perform_randomInt_of_le (evaluated : engine.evalValue frame = (.ok v, after))
    (bound : v.toInt32 ≤ 0) : engine.perform frame Handler.randomInt = (.ok (.int 0), after) := by
  rw [Handler.randomInt, perform_bind_ok (perform_int32_ok evaluated), if_pos bound]
  exact after.2.perform_done after.1 (Value.int 0)

theorem perform_randomInt_of_lt (evaluated : engine.evalValue frame = (.ok v, after))
    (bound : 0 < v.toInt32) {k : Nat} {generator : Generator}
    (drawn : after.2.generator.drawUpTo v.toInt32.toNatClampNeg
      (Handler.toNatClampNeg_add_one_lt v.toInt32) = (k, generator)) :
    engine.perform frame Handler.randomInt =
      (.ok (.int (Int32.ofNat k)), after.1, { after.2 with generator }) := by
  rw [Handler.randomInt, perform_bind_ok (perform_int32_ok evaluated),
    if_neg (Int32.not_le.2 bound)]
  refine perform_draw ?_
  rw [drawn]

/-- A random integer up to a bound. A bound that is not positive gives zero without a draw. Up to any
other bound the integer is at least zero and at most the bound, and it is that of the first word of the
generator that is accepted, which ends the draw. For every integer from zero to the bound, the two ends
among them, there are words that are accepted as it. -/
theorem random_integer_bounded {engine : Engine} {frame : Frame} {v : Value} {after : Frame × Engine}
    (code : (engine.functionCode frame)[frame.pc]? = some Opcode.randomInt.toByte)
    (room : engine.depth < engine.settings.maxDepth)
    (operand : engine.entered.evalValue { frame with pc := frame.pc + 1 } = (.ok v, after)) :
    (v.toInt32 ≤ 0 → engine.evalValue frame = left (.ok (.int 0), after)) ∧
    (0 < v.toInt32 → ∃ (k : Int32) (generator : Generator),
      engine.evalValue frame = left (.ok (.int k), after.1, { after.2 with generator }) ∧
      0 ≤ k ∧ k ≤ v.toInt32 ∧
      Draws (below? (v.toInt32.toNatClampNeg + 1)) after.2.generator k.toNatClampNeg generator) ∧
    (0 < v.toInt32 → ∀ k,
      below? (v.toInt32.toNatClampNeg + 1) after.2.generator.advance.word = some k →
      engine.evalValue frame = left (.ok (.int (.ofNat k)), after.1,
        { after.2 with generator := after.2.generator.advance })) ∧
    (∀ (bound : Int32) (k : Nat), k ≤ bound.toNatClampNeg → ∃ half < halfRange, ∀ word : UInt64,
      word.toNat % halfRange = half → below? (bound.toNatClampNeg + 1) word = some k) := by
  have evaluated := evalValue_opcode code room
  cases drawn : after.2.generator.drawUpTo v.toInt32.toNatClampNeg
    (Handler.toNatClampNeg_add_one_lt v.toInt32) with
  | mk k generator =>
    have draws := Draws.of_draw drawn
    have answer (bound : 0 < v.toInt32) := evaluated.trans
      (congrArg left (perform_randomInt_of_lt operand bound drawn))
    refine ⟨fun bound => ?_, fun bound => ?_, fun bound first taken => ?_, fun bound k within => ?_⟩
    · exact evaluated.trans (congrArg left (perform_randomInt_of_le operand bound))
    · obtain ⟨word, accepted⟩ := draws.exists_word
      have within := Nat.le_of_lt_succ (below?_lt (Nat.succ_pos _) accepted)
      obtain ⟨low, high, number⟩ := int32_ofNat_within bound within
      exact ⟨.ofNat k, generator, answer bound, low, high, number.symm ▸ draws⟩
    · obtain ⟨rfl, rfl⟩ := draws.of_next taken
      exact answer bound
    · exact exists_accepted_half (Nat.le_of_lt (Handler.toNatClampNeg_add_one_lt bound))
        (Nat.lt_succ_of_le within)

/-- A die with seven sides, and a bound that is negative. -/
theorem random_integer_bounded_die :
    let code := Assembler.opcode .randomInt ++ Assembler.integer 6 ++
      Assembler.opcode .randomInt ++ Assembler.integer (-1)
    let engine := start { Image.empty with functions := #[⟨"main", 0, 0, code⟩] } ⟨16, some 42⟩ 0
    let frame (pc : Nat) : Frame := ⟨0, pc, #[], #[], 0⟩
    (∃ k, (engine.evalValue (frame 0)).1 = .ok (.int k) ∧ 0 ≤ k ∧ k ≤ 6) ∧
      (engine.evalValue (frame 2)).1 = .ok (.int 0) ∧
      (engine.evalValue (frame 2)).2.2.generator = engine.generator := by
  intro code engine frame
  have room : 0 < 16 := by decide
  obtain ⟨-, drawn, -⟩ := @random_integer_bounded engine (frame 0) (.int 6) (frame 2, engine.entered)
    rfl room rfl
  obtain ⟨none, -⟩ := @random_integer_bounded engine (frame 2) (.int (-1)) (frame 4, engine.entered)
    rfl room rfl
  obtain ⟨k, generator, answer, low, high, -⟩ := drawn (by decide)
  have zero := none (by decide)
  rw [answer, zero]
  exact ⟨⟨k, rfl, low, high⟩, rfl, rfl⟩

end Engine
end NodeScript
