import NodeScript.Value

/-!
# Random numbers

The generator counts up by a fixed odd step and mixes each count into a 64-bit word. Uniform numbers
are drawn by rejection: words are taken until one is acceptable. The counter runs through all 64-bit
numbers, so every draw that accepts the word of some count ends.
-/
namespace NodeScript

structure Generator where
  state : UInt64
  deriving DecidableEq

namespace Generator

def step : UInt64 := 0x2d358dccaa6c78a5

def advance (generator : Generator) : Generator := ⟨generator.state + step⟩

/-- Multiplies the count by a masked copy of itself and folds the 128 bits of the product. -/
def word (generator : Generator) : UInt64 :=
  let product := generator.state.toNat * (generator.state ^^^ 0x8bb84b93962eacc9).toNat
  UInt64.ofNat product ^^^ UInt64.ofNat (product >>> 64)

/-- A count whose word ends in thirty-one zero bits and a one, which every draw below accepts. -/
def home : Generator := ⟨2713328213⟩

theorem word_home : home.word = 0x9ac8f46b00000001 := by decide

/-- The inverse of the step modulo 2⁶⁴. -/
def stepInverse : UInt64 := 0x32e25c49d2beaf2d

theorem step_mul_stepInverse : step * stepInverse = 1 := by decide

/-- How many further steps lead from the next count to the home count. -/
def distance (generator : Generator) : Nat :=
  ((home.state - generator.advance.state) * stepInverse).toNat

theorem advance_eq_home {generator : Generator}
    (h : (home.state - generator.advance.state) * stepInverse = 0) : generator.advance = home := by
  have hz : home.state - generator.advance.state = 0 := by
    have := congrArg (· * step) h
    simpa [UInt64.mul_assoc, UInt64.mul_comm stepInverse step, step_mul_stepInverse] using this
  have : generator.advance.state = home.state := by
    have := congrArg (· + generator.advance.state) hz
    simpa [UInt64.sub_add_cancel] using this.symm
  cases hg : generator.advance
  simp_all

theorem distance_advance_lt {generator : Generator} (h : generator.advance ≠ home) :
    generator.advance.distance < generator.distance := by
  have hne : (home.state - generator.advance.state) * stepInverse ≠ 0 := mt advance_eq_home h
  have hstep : (home.state - generator.advance.advance.state) * stepInverse =
      (home.state - generator.advance.state) * stepInverse - 1 := by
    have h1 := step_mul_stepInverse
    simp only [advance] at *
    grind
  have hpos := mt UInt64.toNat_inj.1 hne
  unfold distance
  rw [hstep, UInt64.toNat_sub_of_le]
  · simp at hpos ⊢
    omega
  · rw [UInt64.le_iff_toNat_le]
    simp at hpos ⊢
    omega

theorem advance_ne_home {α : Type} {accept : UInt64 → Option α} {generator : Generator}
    (ends : (accept home.word).isSome) (rejected : accept generator.advance.word = none) :
    generator.advance ≠ home := by
  intro heq
  rw [← heq, rejected] at ends
  cases ends

/-- Draws words until one is accepted, given that the home word would be. -/
def draw {α : Type} (accept : UInt64 → Option α) (ends : (accept home.word).isSome)
    (generator : Generator) : α × Generator :=
  match rejected : accept generator.advance.word with
  | some sample => (sample, generator.advance)
  | none =>
    have := distance_advance_lt (advance_ne_home ends rejected)
    draw accept ends generator.advance
termination_by generator.distance

/-- The upper 63 bits of a word as a fraction of 2⁶³, unless they round to one. -/
def fraction? (word : UInt64) : Option Binary64 :=
  let number := (Binary64.ofNat (word.toNat / 2)).mul (.twoPow (-63))
  if number.lt (.ofNat 1) then some number else none

theorem fraction?_home : (fraction? home.word).isSome := by
  rw [word_home]
  decide +kernel

/-- Draws a number that is at least zero and less than one. -/
def drawFraction (generator : Generator) : Binary64 × Generator :=
  generator.draw fraction? fraction?_home

/-- How many numbers the half of a word can be. -/
abbrev halfRange : Nat := 0x100000000

/-- The high half of the product of a word's low half and `count`, a number below `count`. A low half
of the product that would favour some of these numbers is refused. -/
def below? (count : Nat) (word : UInt64) : Option Nat :=
  let product := word.toNat % halfRange * count
  if (halfRange - count) % count ≤ product % halfRange then some (product / halfRange) else none

theorem below?_home {count : Nat} (positive : 0 < count) (small : count < halfRange) :
    (below? count home.word).isSome := by
  have hlow : home.word.toNat % halfRange = 1 := by rw [word_home]; decide
  have hmod := Nat.mod_lt (halfRange - count) positive
  unfold below?
  simp only [hlow, Nat.one_mul, Nat.mod_eq_of_lt small]
  rw [if_pos (by omega)]
  rfl

/-- Draws a number that is at most `bound`. -/
def drawUpTo (bound : Nat) (small : bound + 1 < halfRange) (generator : Generator) :
    Nat × Generator :=
  generator.draw (below? (bound + 1)) (below?_home (Nat.succ_pos bound) small)

end Generator
end NodeScript
