import NodeScript.Proofs.NormalizedValue
import NodeScript.ValueWord

/-!
# Words of values

A word is read back as the value that it was made from, normalized. The tags lie above the words of all
doubles that are no NaN, so no two normalized values have the same word.
-/
namespace NodeScript

theorem HandleKind.ofCode?_code (kind : HandleKind) : ofCode? kind.code = some kind := by
  cases kind <;> rfl

theorem HandleKind.code_le (kind : HandleKind) : kind.code ≤ 4 := by
  cases kind <;> decide

namespace Value

section
variable {tag payload : Nat} (tag_lt : tag < 0x10000) (payload_lt : payload < tagWeight)
include tag_lt payload_lt

theorem toNat_tagged : (tagged tag payload).toNat = tag * tagWeight + payload := by
  rw [tagged, UInt64.toNat_ofNat']
  simp only [tagWeight] at payload_lt ⊢
  omega

/-- A word is read by its tag and its payload. -/
theorem ofWord?_tagged : ofWord? (tagged tag payload) =
    if tag = intTag then some (.int (UInt32.ofNat payload).toInt32)
    else if tag = specialTag then ofSpecial? payload
    else if tag = handleTag then
      (HandleKind.ofCode? (payload / kindWeight)).map fun kind =>
        .handle kind (UInt32.ofNat payload)
    else some (ofBinary64 ⟨tagged tag payload⟩) := by
  have tag_eq : (tagged tag payload).toNat / tagWeight = tag := by
    rw [toNat_tagged tag_lt payload_lt]
    simp only [tagWeight] at payload_lt ⊢
    omega
  have payload_eq : (tagged tag payload).toNat % tagWeight = payload := by
    rw [toNat_tagged tag_lt payload_lt]
    simp only [tagWeight] at payload_lt ⊢
    omega
  simp only [ofWord?, tag_eq, payload_eq]

end

theorem ofWord?_special {payload : Nat} (small : payload < 5) :
    ofWord? (tagged specialTag payload) = ofSpecial? payload := by
  have fits : payload < tagWeight := Nat.lt_trans small (by decide)
  rw [ofWord?_tagged (by decide) fits, if_neg (by decide), if_pos rfl]

theorem ofWord?_int (number : Int32) : ofWord? (tagged intTag number.toUInt32.toNat) =
    some (.int number) := by
  have fits : number.toUInt32.toNat < tagWeight :=
    Nat.lt_trans number.toUInt32.toNat_lt (by decide)
  rw [ofWord?_tagged (by decide) fits, if_pos rfl, UInt32.ofNat_toNat, Int32.toInt32_toUInt32]

theorem ofWord?_handle (kind : HandleKind) (index : UInt32) :
    ofWord? (tagged handleTag (kind.code * kindWeight + index.toNat)) =
      some (.handle kind index) := by
  have index_lt : index.toNat < kindWeight := index.toNat_lt
  have code_le := kind.code_le
  have fits : kind.code * kindWeight + index.toNat < tagWeight := by
    simp only [kindWeight, tagWeight] at index_lt ⊢
    omega
  have code_eq : (kind.code * kindWeight + index.toNat) / kindWeight = kind.code := by
    simp only [kindWeight] at index_lt ⊢
    omega
  have index_eq : UInt32.ofNat (kind.code * kindWeight + index.toNat) = index := by
    apply UInt32.toNat_inj.1
    rw [UInt32.toNat_ofNat']
    simp only [kindWeight] at index_lt ⊢
    omega
  rw [ofWord?_tagged (by decide) fits, if_neg (by decide), if_neg (by decide), if_pos rfl, code_eq,
    index_eq, HandleKind.ofCode?_code]
  rfl

/-- No double but a NaN has a word under a tag. -/
theorem bits_lt_handleTag {number : Binary64} (h : number.isNaN = false) :
    number.bits.toNat / tagWeight < handleTag := by
  have word_lt := number.bits.toNat_lt
  have finite : ¬Binary64.infinityMagnitude < number.magnitude := of_decide_eq_false h
  simp only [Binary64.magnitude, Binary64.infinityMagnitude, Binary64.exponentWeight,
    Binary64.signWeight] at finite
  simp only [tagWeight, handleTag]
  omega

theorem ofWord?_bits {number : Binary64} (h : number.isNaN = false) :
    ofWord? number.bits = some (.double number) := by
  have low := bits_lt_handleTag h
  simp only [handleTag] at low
  simp only [ofWord?, intTag, specialTag, handleTag]
  rw [if_neg (by omega), if_neg (by omega), if_neg (by omega)]
  simp only [ofBinary64, h, Bool.false_eq_true, if_false]

/-- The word of a value is read back as the normalized value. -/
theorem ofWord?_toWord (v : Value) : ofWord? v.toWord = some v.normalized := by
  cases v with
  | double number =>
    cases h : number.isNaN with
    | true =>
      simp only [toWord, normalized, ofBinary64, h, if_true]
      decide
    | false =>
      simp only [toWord, normalized, ofBinary64, h, Bool.false_eq_true, if_false]
      exact ofWord?_bits h
  | int number => exact ofWord?_int number
  | bool truth =>
    cases truth with
    | false | true => exact ofWord?_special (by decide)
  | null | undefined | packetBuffer => exact ofWord?_special (by decide)
  | nan => decide
  | handle kind index => exact ofWord?_handle kind index

/-- The word is made from the normalized value. -/
theorem toWord_normalized (v : Value) : v.normalized.toWord = v.toWord := by
  cases v with
  | double number =>
    cases h : number.isNaN with
    | true => simp only [normalized, ofBinary64, toWord, h, if_true]
    | false => simp only [normalized, ofBinary64, toWord, h, Bool.false_eq_true, if_false]
  | int | bool | null | undefined | nan | packetBuffer | handle => rfl

theorem toWord_eq_iff {a b : Value} : a.toWord = b.toWord ↔ a.normalized = b.normalized := by
  constructor
  · intro same
    have read := ofWord?_toWord a
    rw [same, ofWord?_toWord] at read
    exact (Option.some.inj read).symm
  · intro same
    rw [← toWord_normalized a, same, toWord_normalized]

/-- Values are stored in words without loss. The word of a value is read back as the value, normalized,
with every bit of a double that is no NaN, and two values have the same word exactly if they are the
same after normalizing. So different normalized values have different words. -/
theorem word_codec :
    (∀ v : Value, ofWord? v.toWord = some v.normalized) ∧
    (∀ a b : Value, a.toWord = b.toWord ↔ a.normalized = b.normalized) ∧
    (∀ a b : Value, a.IsNormalized → b.IsNormalized → a ≠ b → a.toWord ≠ b.toWord) := by
  refine ⟨ofWord?_toWord, fun _ _ => toWord_eq_iff, fun a b plain plain' different same => ?_⟩
  rw [toWord_eq_iff, normalized_eq_self_iff.2 plain, normalized_eq_self_iff.2 plain'] at same
  exact different same

/-- The two zeros have different words, and so have an integer and the double of the same value. -/
theorem word_codec_zeros :
    (double (.zero true)).toWord ≠ (double (.zero false)).toWord ∧
      (int 0).toWord ≠ (double (.zero false)).toWord :=
  ⟨word_codec.2.2 _ _ (by decide) (by decide) (by decide),
    word_codec.2.2 _ _ (by decide) (by decide) (by decide)⟩

end Value
end NodeScript
