import NodeScript.Proofs.ValueWordCodec

/-!
# What words are read as

Every word stands under one of the three tags or is a double. The words that are refused are those
under the special and the handle tag that no value is stored as. Storing what a word was read as gives
back the word, except that all NaNs become one, and that the bits between an integer and its tag, which
reading skips, are cleared.
-/
namespace NodeScript

theorem HandleKind.code_of_ofCode? {code : Nat} {kind : HandleKind}
    (h : ofCode? code = some kind) : kind.code = code := by
  have found := List.find?_some h
  exact beq_iff_eq.1 found

theorem HandleKind.ofCode?_eq_none_iff {code : Nat} :
    ofCode? code = none ↔ code ∉ [1, 2, 3, 4] := by
  simp only [ofCode?, List.find?_eq_none, all, HandleKind.code, beq_iff_eq, List.mem_cons, not_or]
  simp [eq_comm]

namespace Value

/-- The sixteen leading bits of a word. -/
def wordTag (word : UInt64) : Nat := word.toNat / tagWeight

/-- The forty-eight bits below the tag. -/
def wordPayload (word : UInt64) : Nat := word.toNat % tagWeight

/-- The word is a NaN and stands under no tag. -/
def IsUntaggedNaN (word : UInt64) : Prop :=
  wordTag word < handleTag ∧ (⟨word⟩ : Binary64).isNaN = true

instance : DecidablePred IsUntaggedNaN := fun _ => inferInstanceAs (Decidable (_ ∧ _))

theorem tagged_wordTag_wordPayload (word : UInt64) :
    tagged (wordTag word) (wordPayload word) = word := by
  rw [tagged, wordTag, wordPayload, Nat.div_add_mod', UInt64.ofNat_toNat]

theorem wordTag_cases (word : UInt64) : wordTag word = intTag ∨ wordTag word = specialTag ∨
    wordTag word = handleTag ∨ wordTag word < handleTag := by
  have word_lt := word.toNat_lt
  simp only [wordTag, tagWeight, intTag, specialTag, handleTag]
  omega

section
variable {word : UInt64}

theorem ofWord?_of_intTag (h : wordTag word = intTag) :
    ofWord? word = some (.int (UInt32.ofNat (wordPayload word)).toInt32) :=
  if_pos h

theorem ofWord?_of_specialTag (h : wordTag word = specialTag) :
    ofWord? word = ofSpecial? (wordPayload word) := by
  have tag : word.toNat / tagWeight = specialTag := h
  simp only [ofWord?, tag]
  rfl

theorem ofWord?_of_handleTag (h : wordTag word = handleTag) :
    ofWord? word = (HandleKind.ofCode? (wordPayload word / kindWeight)).map fun kind =>
      .handle kind (UInt32.ofNat (wordPayload word)) := by
  have tag : word.toNat / tagWeight = handleTag := h
  simp only [ofWord?, tag]
  rfl

theorem ofWord?_of_untagged (h : wordTag word < handleTag) :
    ofWord? word = some (ofBinary64 ⟨word⟩) := by
  have low : word.toNat / tagWeight < handleTag := h
  simp only [handleTag] at low
  simp only [ofWord?, intTag, specialTag, handleTag]
  rw [if_neg (by omega), if_neg (by omega), if_neg (by omega)]

end

theorem ofSpecial?_eq_none_iff {payload : Nat} : ofSpecial? payload = none ↔ 4 < payload := by
  fun_cases ofSpecial? payload with
  | case6 => simp only [imp_false] at *; simp; omega
  | _ => simp

theorem toWord_of_ofSpecial? {payload : Nat} {v : Value} (h : ofSpecial? payload = some v) :
    v.IsNormalized ∧ v.toWord = tagged specialTag payload := by
  revert h
  fun_cases ofSpecial? payload with
  | case6 => rintro ⟨⟩
  | _ =>
    rintro ⟨⟩
    exact ⟨trivial, rfl⟩

/-- Of an integer's payload only the low half is stored again. -/
theorem toWord_int_ofNat (payload : Nat) :
    (int (UInt32.ofNat payload).toInt32).toWord = tagged intTag (payload % kindWeight) := by
  rw [toWord, UInt32.toUInt32_toInt32, UInt32.toNat_ofNat']

theorem toWord_handle_of_ofCode? {payload : Nat} {kind : HandleKind}
    (h : HandleKind.ofCode? (payload / kindWeight) = some kind) :
    (handle kind (UInt32.ofNat payload)).toWord = tagged handleTag payload := by
  have restored : payload / kindWeight * kindWeight + payload % kindWeight = payload :=
    Nat.div_add_mod' payload kindWeight
  have index : (UInt32.ofNat payload).toNat = payload % kindWeight := UInt32.toNat_ofNat'
  rw [toWord, HandleKind.code_of_ofCode? h, index, restored]

theorem toWord_ofBinary64 (number : Binary64) :
    (ofBinary64 number).toWord = if number.isNaN then Binary64.nan.bits else number.bits := by
  rw [ofBinary64]
  cases h : number.isNaN with
  | true => rfl
  | false => simp only [Bool.false_eq_true, if_false, toWord, h]

/-- Only words under the special and the handle tag are refused. -/
theorem ofWord?_eq_none_iff {word : UInt64} : ofWord? word = none ↔
    wordTag word = specialTag ∧ 4 < wordPayload word ∨
    wordTag word = handleTag ∧ wordPayload word / kindWeight ∉ [1, 2, 3, 4] := by
  have int_ne : intTag ≠ specialTag ∧ intTag ≠ handleTag := by decide
  have special_ne : specialTag ≠ handleTag := by decide
  rcases wordTag_cases word with tag | tag | tag | untagged
  · rw [ofWord?_of_intTag tag, tag]
    simp [int_ne.1, int_ne.2]
  · rw [ofWord?_of_specialTag tag, ofSpecial?_eq_none_iff, tag]
    simp [special_ne]
  · rw [ofWord?_of_handleTag tag, Option.map_eq_none_iff, HandleKind.ofCode?_eq_none_iff, tag]
    simp [special_ne.symm]
  · have no_special : wordTag word ≠ specialTag := by
      simp only [handleTag, specialTag] at untagged ⊢
      omega
    rw [ofWord?_of_untagged untagged]
    simp [no_special, Nat.ne_of_lt untagged]

/-- The word that the value of an accepted word is stored as. -/
def rewritten (word : UInt64) : UInt64 :=
  if wordTag word = intTag then tagged intTag (wordPayload word % kindWeight)
  else if IsUntaggedNaN word then Binary64.nan.bits
  else word

theorem rewritten_of_tagged {word : UInt64} {tag : Nat} (stands : wordTag word = tag)
    (not_int : tag ≠ intTag) (high : handleTag ≤ tag) : rewritten word = word := by
  rw [← stands] at not_int high
  have not_untagged : ¬IsUntaggedNaN word := fun untagged => Nat.not_lt.2 high untagged.1
  rw [rewritten, if_neg not_int, if_neg not_untagged]

theorem toWord_of_ofWord? {word : UInt64} {v : Value} (h : ofWord? word = some v) :
    v.IsNormalized ∧ v.toWord = rewritten word := by
  rcases wordTag_cases word with tag | tag | tag | untagged
  · rw [ofWord?_of_intTag tag] at h
    cases h
    refine ⟨trivial, ?_⟩
    rw [toWord_int_ofNat, rewritten, if_pos tag]
  · rw [ofWord?_of_specialTag tag] at h
    obtain ⟨plain, stored⟩ := toWord_of_ofSpecial? h
    have kept := rewritten_of_tagged tag (by decide) (by decide)
    refine ⟨plain, ?_⟩
    rw [stored, ← tag, tagged_wordTag_wordPayload, kept]
  · rw [ofWord?_of_handleTag tag] at h
    obtain ⟨kind, found, rfl⟩ := Option.map_eq_some_iff.1 h
    have kept := rewritten_of_tagged tag (by decide) (by decide)
    refine ⟨trivial, ?_⟩
    rw [toWord_handle_of_ofCode? found, ← tag, tagged_wordTag_wordPayload, kept]
  · rw [ofWord?_of_untagged untagged] at h
    cases h
    refine ⟨isNormalized_ofBinary64 _, ?_⟩
    have not_int : wordTag word ≠ intTag := by
      simp only [handleTag, intTag] at untagged ⊢
      omega
    rw [toWord_ofBinary64, rewritten, if_neg not_int]
    simp only [IsUntaggedNaN, untagged, true_and]

theorem eq_nan_of_isUntaggedNaN {word : UInt64} {v : Value} (untagged : IsUntaggedNaN word)
    (h : ofWord? word = some v) : v = .nan := by
  rw [ofWord?_of_untagged untagged.1, ofBinary64, if_pos untagged.2] at h
  exact (Option.some.inj h).symm

/-- What every word is read as. A word is refused exactly if it stands under the special tag with a
payload that numbers no value, or under the handle tag with a number that is no kind above the index.
The value of any other word is normalized, and its own word is read as the same value. That word is the
quiet NaN for every NaN under no tag; for an integer it has nothing between the tag and the integer;
and otherwise it is the word that was read. -/
theorem word_reading (word : UInt64) :
    (ofWord? word = none ↔
      wordTag word = specialTag ∧ 4 < wordPayload word ∨
      wordTag word = handleTag ∧ wordPayload word / kindWeight ∉ [1, 2, 3, 4]) ∧
    ∀ v, ofWord? word = some v →
      v.IsNormalized ∧ ofWord? v.toWord = some v ∧
      (IsUntaggedNaN word → v = .nan ∧ v.toWord = 0x7FF8000000000000) ∧
      (wordTag word = intTag → v = .int (UInt32.ofNat (wordPayload word)).toInt32 ∧
        v.toWord = tagged intTag (wordPayload word % kindWeight)) ∧
      (¬IsUntaggedNaN word → (wordTag word = intTag → wordPayload word < kindWeight) →
        v.toWord = word) := by
  refine ⟨ofWord?_eq_none_iff, fun v h => ?_⟩
  obtain ⟨plain, stored⟩ := toWord_of_ofWord? h
  refine ⟨plain, ?_, fun untagged => ?_, fun tag => ?_, fun number short => ?_⟩
  · rw [ofWord?_toWord, normalized_eq_self_iff.2 plain]
  · obtain rfl := eq_nan_of_isUntaggedNaN untagged h
    exact ⟨rfl, rfl⟩
  · rw [ofWord?_of_intTag tag] at h
    exact ⟨(Option.some.inj h).symm, by rw [stored, rewritten, if_pos tag]⟩
  · rw [stored, rewritten]
    by_cases tag : wordTag word = intTag
    · rw [if_pos tag, Nat.mod_eq_of_lt (short tag), ← tag, tagged_wordTag_wordPayload]
    · rw [if_neg tag, if_neg number]

/-- A handle with a stray bit above its kind is refused, and the negative quiet NaN is stored back
without its sign. -/
theorem word_reading_stray_bits :
    ofWord? 0xFFFD010300000007 = none ∧
      ofWord? 0xFFF8000000000000 = some .nan ∧ Value.nan.toWord = 0x7FF8000000000000 := by
  have read : ofWord? 0xFFF8000000000000 = some .nan := by decide
  have untagged : IsUntaggedNaN 0xFFF8000000000000 := by decide
  refine ⟨(word_reading _).1.2 (.inr (by decide)), read, ?_⟩
  exact (((word_reading _).2 _ read).2.2.1 untagged).2

/-- Not every word that is accepted and is no NaN without a tag is the word of its value: what stands
between an integer and its tag is lost. -/
theorem word_not_restored :
    wordTag 0xFFFF000100000000 = intTag ∧ ¬IsUntaggedNaN 0xFFFF000100000000 ∧
      ∃ v, ofWord? 0xFFFF000100000000 = some v ∧ v.toWord = 0xFFFF000000000000 ∧
        v.toWord ≠ 0xFFFF000100000000 :=
  ⟨by decide, by decide, .int 0, by decide, by decide, by decide⟩

end Value
end NodeScript
