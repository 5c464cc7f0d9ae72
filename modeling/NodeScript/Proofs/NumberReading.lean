import NodeScript.Proofs.CorrectRounding

/-!
# What a number format reads

Bytes spell an integer with the least significant byte first, in two's complement if it is negative.
A format reads at an offset the number that the bytes there spell, and looks at nothing else of the
data. For every format this follows from two facts about spelling: every string of bytes spells an
integer of its kind, and no two integers of a kind are spelled alike.
-/
namespace NodeScript

namespace Bytes

/-- The lowest bytes of an integer, so many of them and the least significant one first. A negative
integer is spelled in two's complement. -/
def spell : Nat → Int → Bytes
  | 0, _ => []
  | count + 1, n => UInt8.ofNat (n % 256).toNat :: spell count (n / 256)

theorem length_spell (count : Nat) (n : Int) : (spell count n).length = count := by
  induction count generalizing n with
  | zero => rfl
  | succ count ih => exact congrArg Nat.succ (ih _)

/-- How many numbers one more byte can spell. -/
theorem one_shiftLeft_succ (count : Nat) : 1 <<< (8 * (count + 1)) = 256 * 1 <<< (8 * count) := by
  rw [Nat.mul_succ, Nat.shiftLeft_add, Nat.shiftLeft_eq _ 8, Nat.mul_comm]

theorem littleEndian_lt (bytes : Bytes) : bytes.littleEndian < 1 <<< (8 * bytes.length) := by
  induction bytes with
  | nil => decide
  | cons byte rest ih =>
    have small := byte.toNat_lt
    rw [List.length_cons, one_shiftLeft_succ, littleEndian]
    omega

theorem spell_littleEndian (bytes : Bytes) : spell bytes.length bytes.littleEndian = bytes := by
  induction bytes with
  | nil => rfl
  | cons byte rest ih =>
    have small := byte.toNat_lt
    have low : ((littleEndian (byte :: rest) : Int) % 256).toNat = byte.toNat := by
      rw [littleEndian]
      omega
    have high : (littleEndian (byte :: rest) : Int) / 256 = littleEndian rest := by
      rw [littleEndian]
      omega
    rw [List.length_cons, spell, low, high, ih, UInt8.ofNat_toNat]

/-- What is spelled is the integer up to a multiple of how many numbers the bytes can spell. -/
theorem exists_eq_littleEndian_spell (count : Nat) (n : Int) :
    ∃ multiple, n = (spell count n).littleEndian + (1 <<< (8 * count) : Nat) * multiple := by
  induction count generalizing n with
  | zero => exact ⟨n, by simp [spell, littleEndian]⟩
  | succ count ih =>
    -- The bytes above the lowest one spell the quotient, with the same multiple left over.
    obtain ⟨multiple, high⟩ := ih (n / 256)
    have low : (UInt8.ofNat (n % 256).toNat).toNat = n % 256 := by
      rw [UInt8.toNat_ofNat']
      omega
    refine ⟨multiple, ?_⟩
    rw [one_shiftLeft_succ, spell, littleEndian]
    generalize 1 <<< (8 * count) = weight at high ⊢
    generalize (spell count (n / 256)).littleEndian = number at high ⊢
    rw [Int.natCast_add, Int.natCast_mul, Int.natCast_mul, low, Int.mul_assoc]
    omega

theorem littleEndian_spell (count : Nat) (n : Int) :
    ((spell count n).littleEndian : Int) = n % (1 <<< (8 * count) : Nat) := by
  obtain ⟨multiple, split⟩ := exists_eq_littleEndian_spell count n
  have small := littleEndian_lt (spell count n)
  rw [length_spell] at small
  generalize (spell count n).littleEndian = number at split small ⊢
  rw [split, Int.add_mul_emod_self_left, Int.emod_eq_of_lt (Int.natCast_nonneg _) (by omega)]

/-- Bytes spell the integers that leave the remainder that is spelled without a sign. -/
theorem eq_spell_iff {bytes : Bytes} {count : Nat} {n : Int} : bytes = spell count n ↔
    bytes.length = count ∧ (bytes.littleEndian : Int) = n % (1 <<< (8 * count) : Nat) := by
  constructor
  · rintro rfl
    exact ⟨length_spell count n, littleEndian_spell count n⟩
  · rintro ⟨rfl, remainder⟩
    have same : bytes.littleEndian = (spell bytes.length n).littleEndian :=
      Int.ofNat_inj.1 (remainder.trans (littleEndian_spell _ n).symm)
    have restored := spell_littleEndian (spell bytes.length n)
    rw [length_spell, ← same, spell_littleEndian] at restored
    exact restored

theorem littleEndian_of_eq_spell {bytes : Bytes} {count number : Nat}
    (spelled : bytes = spell count number) (small : number < 1 <<< (8 * count)) :
    bytes.littleEndian = number := by
  have remainder := (eq_spell_iff.1 spelled).2
  rw [Int.emod_eq_of_lt (Int.natCast_nonneg _) (by omega)] at remainder
  exact Int.ofNat_inj.1 remainder

end Bytes

theorem Binary64.ofInt_natCast (n : Nat) : ofInt n = ofNat n := by
  rw [ofInt, ofNat, decide_eq_false (by omega : ¬(n : Int) < 0), Int.natAbs_natCast]

namespace NumberKind

/-- A kind whose integers are all 32-bit integers: one or two bytes without a sign, or up to four bytes
with one. -/
def HasSmallIntegers (kind : NumberKind) : Prop :=
  kind.numeral = .unsigned ∧ kind.bytes ≤ 2 ∨ kind.numeral = .signed ∧ kind.bytes ≤ 4

/-- The integers of a kind. Kinds with a sign have as many below zero as not. -/
def Contains (kind : NumberKind) (n : Int) : Prop :=
  match kind.numeral with
  | .unsigned => 0 ≤ n ∧ n < (1 <<< kind.bits : Nat)
  | .signed => -(1 <<< (kind.bits - 1) : Nat) ≤ n ∧ n < (1 <<< (kind.bits - 1) : Nat)
  | .float => False

/-- The bytes spell an integer of the kind. -/
def SpellsInteger (kind : NumberKind) (bytes : Bytes) (n : Int) : Prop :=
  kind.Contains n ∧ bytes = Bytes.spell kind.bytes n

/-- The bytes spell a number: an integer of the kind, which is rounded to a double, or the pattern of a
floating-point number, whose value the double has. -/
inductive Spells (kind : NumberKind) (bytes : Bytes) : Binary64 → Prop where
  | integer {n : Int} {x : Binary64} (spelled : kind.SpellsInteger bytes n) (rounds : x.RoundsInt n) :
      Spells kind bytes x
  | binary32 {negative : Bool} {exponent fraction : Nat} {x : Binary64}
      (float : kind.numeral = .float) (four : kind.bytes = 4) (exponent_lt : exponent < 256)
      (fraction_lt : fraction < 0x800000)
      (spelled : bytes = Bytes.spell 4 (Binary64.shortPattern negative exponent fraction))
      (value : x.IsShort negative exponent fraction) : Spells kind bytes x
  | binary64 (word : UInt64) (float : kind.numeral = .float) (eight : kind.bytes = 8)
      (spelled : bytes = Bytes.spell 8 word.toNat) : Spells kind bytes ⟨word⟩

variable {kind : NumberKind} {bytes : Bytes} {n : Int}

theorem one_shiftLeft_bits (kind : NumberKind) : 1 <<< kind.bits = 2 * 1 <<< (kind.bits - 1) := by
  have positive : 1 ≤ kind.bits := by
    have : 1 ≤ kind.bytes := by
      rw [NumberKind.bytes, Nat.one_shiftLeft]
      exact Nat.one_le_two_pow
    rw [bits]
    omega
  obtain ⟨below, same⟩ := Nat.exists_eq_add_of_le' positive
  rw [same, Nat.add_sub_cancel, Nat.shiftLeft_succ]

theorem SpellsInteger.littleEndian_eq (spelled : kind.SpellsInteger bytes n) :
    (bytes.littleEndian : Int) = n % (1 <<< kind.bits : Nat) :=
  (Bytes.eq_spell_iff.1 spelled.2).2

theorem SpellsInteger.littleEndian_of_unsigned (spelled : kind.SpellsInteger bytes n)
    (unsigned : kind.numeral = .unsigned) : (bytes.littleEndian : Int) = n := by
  have contains := spelled.1
  simp only [Contains, unsigned] at contains
  rw [spelled.littleEndian_eq, Int.emod_eq_of_lt contains.1 contains.2]

theorem SpellsInteger.bmod_of_signed (spelled : kind.SpellsInteger bytes n)
    (signed : kind.numeral = .signed) : (bytes.littleEndian : Int).bmod (1 <<< kind.bits) = n := by
  have contains := spelled.1
  simp only [Contains, signed] at contains
  have double := kind.one_shiftLeft_bits
  rw [spelled.littleEndian_eq, Int.emod_bmod, Int.bmod_eq_of_le_mul_two]
  · omega
  · omega

/-- Bytes of the right number always spell an integer of the kind. -/
theorem exists_spellsInteger (length : bytes.length = kind.bytes)
    (integral : kind.numeral ≠ .float) : ∃ n, kind.SpellsInteger bytes n := by
  have small := bytes.littleEndian_lt
  rw [length] at small
  cases numeral : kind.numeral with
  | unsigned =>
    refine ⟨bytes.littleEndian, ?_, ?_⟩
    · simp only [Contains, numeral, bits]
      omega
    · rw [← length, Bytes.spell_littleEndian]
  | signed =>
    have double := kind.one_shiftLeft_bits
    refine ⟨(bytes.littleEndian : Int).bmod (1 <<< kind.bits), ?_, ?_⟩
    · have positive := Binary64.shiftLeft_pos Nat.one_pos kind.bits
      have lower := @Int.le_bmod bytes.littleEndian _ positive
      have upper := @Int.bmod_lt bytes.littleEndian _ positive
      simp only [Contains, numeral]
      omega
    · refine Bytes.eq_spell_iff.2 ⟨length, ?_⟩
      rw [bits, Int.bmod_emod, Int.emod_eq_of_lt (Int.natCast_nonneg _) (by omega)]
  | float => exact absurd numeral integral

theorem hasSmallIntegers_iff : kind.HasSmallIntegers ↔
    kind.numeral = .unsigned ∧ kind.bits < 32 ∨ kind.numeral = .signed ∧ kind.bits ≤ 32 := by
  rw [HasSmallIntegers]
  obtain ⟨numeral, logBytes⟩ := kind
  cases numeral <;> revert logBytes <;> decide

theorem HasSmallIntegers.integral (small : kind.HasSmallIntegers) : kind.numeral ≠ .float := by
  obtain ⟨unsigned, -⟩ | ⟨signed, -⟩ := small
  · rw [unsigned]
    rintro ⟨⟩
  · rw [signed]
    rintro ⟨⟩

/-- The integers of the small kinds are 32-bit integers. -/
theorem Contains.fits (contains : kind.Contains n) (small : kind.HasSmallIntegers) :
    -0x80000000 ≤ n ∧ n < 0x80000000 := by
  have half : 1 <<< 31 = 0x80000000 := rfl
  rcases hasSmallIntegers_iff.1 small with ⟨unsigned, few⟩ | ⟨signed, few⟩
  · have most := @Binary64.shiftLeft_le_shiftLeft 1 _ _ (show kind.bits ≤ 31 by omega)
    simp only [Contains, unsigned] at contains
    omega
  · have most := @Binary64.shiftLeft_le_shiftLeft 1 _ _ (show kind.bits - 1 ≤ 31 by omega)
    simp only [Contains, signed] at contains
    omega

theorem int?_of_small (spelled : kind.SpellsInteger bytes n) (small : kind.HasSmallIntegers) :
    kind.int? bytes = some (Int32.ofInt n) := by
  rcases hasSmallIntegers_iff.1 small with ⟨unsigned, few⟩ | ⟨signed, few⟩
  · simp only [int?, unsigned, if_pos few]
    rw [← spelled.littleEndian_of_unsigned unsigned]
    rfl
  · simp only [int?, signed, if_pos few]
    rw [spelled.bmod_of_signed signed]

theorem int?_of_not_small (large : ¬kind.HasSmallIntegers) : kind.int? bytes = none := by
  rw [hasSmallIntegers_iff] at large
  cases numeral : kind.numeral with
  | unsigned => simp only [int?, numeral, if_neg fun few => large (.inl ⟨numeral, few⟩)]
  | signed => simp only [int?, numeral, if_neg fun few => large (.inr ⟨numeral, few⟩)]
  | float => simp only [int?, numeral]

/-- A floating-point number that can be read has four bytes or eight. -/
theorem bytes_of_float (readable : kind.isReadable = true) (float : kind.numeral = .float) :
    kind.bytes = 4 ∨ kind.bytes = 8 := by
  obtain ⟨numeral, logBytes⟩ := kind
  cases float
  revert logBytes
  decide

theorem number_of_spellsInteger (spelled : kind.SpellsInteger bytes n) :
    kind.number bytes = .ofInt n := by
  cases numeral : kind.numeral with
  | unsigned =>
    simp only [number, numeral]
    rw [← Binary64.ofInt_natCast, spelled.littleEndian_of_unsigned numeral]
  | signed =>
    simp only [number, numeral]
    rw [spelled.bmod_of_signed numeral]
  | float =>
    have contains := spelled.1
    simp only [Contains, numeral] at contains

/-- The number is what the bytes spell, up to the bits of a NaN. -/
theorem Spells.sameNumber {x : Binary64} (spelled : kind.Spells bytes x) :
    (kind.number bytes).SameNumber x := by
  cases spelled with
  | integer spelled rounds =>
    rw [number_of_spellsInteger spelled]
    exact .inl ((Binary64.roundsInt_ofInt _).unique Nat.one_pos rounds)
  | @binary32 negative exponent fraction _ float four exponent_lt fraction_lt spelled value =>
    have bounded := (Binary64.shortPattern_fields exponent_lt fraction_lt negative).1
    have pattern := Bytes.littleEndian_of_eq_spell spelled bounded
    have made : kind.number bytes = .ofBinary32
        (UInt32.ofNat (Binary64.shortPattern negative exponent fraction)) := by
      simp [number, float, four, pattern]
    rw [made]
    exact (Binary64.isShort_ofBinary32 exponent_lt fraction_lt negative).unique value
  | binary64 word float eight spelled =>
    have pattern := Bytes.littleEndian_of_eq_spell spelled word.toNat_lt
    left
    simp [number, float, eight, pattern]

/-- Bytes of the right number are the pattern of a word. -/
theorem exists_word (length : bytes.length = 8) : ∃ word : UInt64, bytes = .spell 8 word.toNat := by
  have small := bytes.littleEndian_lt
  rw [length] at small
  refine ⟨UInt64.ofNat bytes.littleEndian, ?_⟩
  rw [UInt64.toNat_ofNat_of_lt' small, ← length, Bytes.spell_littleEndian]

theorem exists_spells (length : bytes.length = kind.bytes) (readable : kind.isReadable = true) :
    ∃ x, kind.Spells bytes x := by
  by_cases float : kind.numeral = .float
  · rcases bytes_of_float readable float with four | eight
    · rw [four] at length
      have small := bytes.littleEndian_lt
      rw [length] at small
      obtain ⟨negative, exponent, fraction, exponent_lt, fraction_lt, pattern⟩ :=
        Binary64.exists_shortPattern small
      refine ⟨_, .binary32 float four exponent_lt fraction_lt ?_
        (Binary64.isShort_ofBinary32 exponent_lt fraction_lt negative)⟩
      rw [← pattern, ← length, Bytes.spell_littleEndian]
    · obtain ⟨word, spelled⟩ := exists_word (length.trans eight)
      exact ⟨⟨word⟩, .binary64 word float eight spelled⟩
  · obtain ⟨n, spelled⟩ := exists_spellsInteger length float
    exact ⟨_, .integer spelled (Binary64.roundsInt_ofInt n)⟩

end NumberKind

namespace NumberFormat

variable {format : NumberFormat} {data : Bytes} {offset : Nat}

theorem read_outside (outside : data.length < offset + format.kind.bytes) :
    format.read data offset = .nan := if_neg (Nat.not_le.2 outside)

theorem read_inside (inside : offset + format.kind.bytes ≤ data.length) :
    format.read data offset = format.decode ((data.drop offset).take format.kind.bytes) :=
  if_pos inside

theorem length_taken {count : Nat} (inside : offset + count ≤ data.length) :
    ((data.drop offset).take count).length = count := by
  rw [List.length_take, List.length_drop]
  omega

/-- The same bytes stand at the same place of data that goes on to both sides. -/
theorem take_drop_append {count : Nat} (before after : Bytes)
    (inside : offset + count ≤ data.length) :
    ((before ++ data ++ after).drop (before.length + offset)).take count =
      (data.drop offset).take count := by
  rw [List.append_assoc, ← List.drop_drop, List.drop_left, List.drop_append_of_le_length (by omega),
    List.take_append_of_le_length (by rw [List.length_drop]; omega)]

/-- More data on either side of the bytes changes nothing. -/
theorem read_append (before after : Bytes) (inside : offset + format.kind.bytes ≤ data.length) :
    format.read (before ++ data ++ after) (before.length + offset) = format.read data offset := by
  have within : before.length + offset + format.kind.bytes ≤ (before ++ data ++ after).length := by
    simp only [List.length_append]
    omega
  rw [read_inside within, read_inside inside, take_drop_append before after inside]

/-- Two to the minus shift has the biased exponent where it belongs. -/
theorem twoPow_neg_shift (format : NumberFormat) : Binary64.twoPow (-Int32.ofNat format.shift) =
    ⟨UInt64.ofNat ((1023 - format.shift) <<< 52)⟩ := by
  have small := format.shift_lt_sixteen
  generalize format.shift = shift at small ⊢
  revert shift
  decide

/-- What the format makes of the bytes of a number: without a shift an integer as it is if it is of a
small kind, and a double otherwise. A shift multiplies the number, as a double, by the double whose
biased exponent is 1023 less the shift. -/
inductive Decodes (format : NumberFormat) (bytes : Bytes) : Value → Prop where
  | int {n : Int32} (plain : format.shift = 0) (small : format.kind.HasSmallIntegers)
      (spelled : format.kind.SpellsInteger bytes n.toInt) : Decodes format bytes (.int n)
  | double {x : Binary64} (plain : format.shift = 0)
      (large : ¬format.kind.HasSmallIntegers) (spelled : format.kind.Spells bytes x) :
      Decodes format bytes (.ofBinary64 x)
  | scaled {x : Binary64} (shifted : 0 < format.shift) (spelled : format.kind.Spells bytes x) :
      Decodes format bytes
        (.ofBinary64 (x.mul ⟨UInt64.ofNat ((1023 - format.shift) <<< 52)⟩))

theorem Decodes.eq_decode {bytes : Bytes} {v : Value} (decodes : format.Decodes bytes v) :
    v = format.decode bytes := by
  cases decodes with
  | int plain small spelled =>
    rw [decode, if_pos plain, NumberKind.int?_of_small spelled small, Int32.ofInt_toInt]
  | double plain large spelled =>
    rw [decode, if_pos plain, NumberKind.int?_of_not_small large]
    exact spelled.sameNumber.ofBinary64_eq.symm
  | scaled shifted spelled =>
    rw [decode, if_neg (Nat.ne_of_gt shifted), twoPow_neg_shift]
    exact (spelled.sameNumber.mul _).ofBinary64_eq.symm

theorem exists_decodes {bytes : Bytes} (length : bytes.length = format.kind.bytes) :
    ∃ v, format.Decodes bytes v := by
  obtain ⟨x, spelled⟩ := NumberKind.exists_spells length format.kind_readable
  rcases Nat.eq_zero_or_pos format.shift with plain | shifted
  · by_cases small : format.kind.HasSmallIntegers
    · obtain ⟨n, integer⟩ :=
        NumberKind.exists_spellsInteger length small.integral
      have fits := integer.1.fits small
      refine ⟨_, .int (n := Int32.ofInt n) plain small ?_⟩
      rwa [Int32.toInt_ofInt_of_le fits.1 fits.2]
    · exact ⟨_, .double plain small spelled⟩
  · exact ⟨_, .scaled shifted spelled⟩

theorem decodes_iff {bytes : Bytes} (length : bytes.length = format.kind.bytes) {v : Value} :
    format.Decodes bytes v ↔ v = format.decode bytes := by
  refine ⟨Decodes.eq_decode, ?_⟩
  rintro rfl
  obtain ⟨v, decodes⟩ := exists_decodes length
  rwa [← decodes.eq_decode]

/-- Only integers of the small kinds are read as integers. -/
theorem Decodes.isInt_iff {bytes : Bytes} {v : Value} (decodes : format.Decodes bytes v) :
    v.isInt = true ↔ format.shift = 0 ∧ format.kind.HasSmallIntegers := by
  cases decodes with
  | int plain small => simp [Value.isInt, plain, small]
  | double plain large => simp [Value.isInt_ofBinary64, large]
  | scaled shifted => simp [Value.isInt_ofBinary64, Nat.ne_of_gt shifted]

/-- Without a shift eight bytes of a floating-point number are a double as it is. -/
theorem decode_binary64 {bytes : Bytes} (plain : format.shift = 0)
    (float : format.kind.numeral = .float) (eight : format.kind.bytes = 8)
    (length : bytes.length = 8) : ∃ word : UInt64, bytes = .spell 8 word.toNat ∧
      format.decode bytes = .ofBinary64 ⟨word⟩ := by
  obtain ⟨word, spelled⟩ := NumberKind.exists_word length
  have spells := NumberKind.Spells.binary64 word float eight spelled
  have large : ¬format.kind.HasSmallIntegers := fun small => small.integral float
  exact ⟨word, spelled, (Decodes.eq_decode (.double plain large spells)).symm⟩

/-- An integer of a small kind is read back wherever it was written. -/
theorem read_spelled {n : Int} (plain : format.shift = 0)
    (small : format.kind.HasSmallIntegers) (contains : format.kind.Contains n)
    (before after : Bytes) : ∃ k : Int32, k.toInt = n ∧
      format.read (before ++ .spell format.kind.bytes n ++ after) before.length = .int k := by
  have fits := contains.fits small
  have word : (Int32.ofInt n).toInt = n := Int32.toInt_ofInt_of_le fits.1 fits.2
  have length := Bytes.length_spell format.kind.bytes n
  have inside : 0 + format.kind.bytes ≤ (Bytes.spell format.kind.bytes n).length := by omega
  have alone := read_append before after inside
  rw [Nat.add_zero, read_inside inside, List.drop_zero,
    List.take_of_length_le (Nat.le_of_eq length)] at alone
  refine ⟨Int32.ofInt n, word, alone.trans ?_⟩
  exact (Decodes.eq_decode (.int plain small (word.symm ▸ ⟨contains, rfl⟩))).symm

/-- Reads are exact. Where the bytes that a format asks for do not all lie in the data, the read is
`nan`. Otherwise it is the one value that these bytes spell: the integer itself for the small kinds
without a shift, and else a double, with just the bits that are spelled for the kind of doubles
without a shift. It is normalized and depends on the bytes alone, so that more data on either side
changes nothing, and an integer of a small kind is read back wherever it was written. -/
theorem read_exact (format : NumberFormat) :
    (∀ data offset, data.length < offset + format.kind.bytes → format.read data offset = .nan) ∧
    (∀ data offset, offset + format.kind.bytes ≤ data.length →
      let taken := (data.drop offset).take format.kind.bytes
      let v := format.read data offset
      (∀ w, format.Decodes taken w ↔ w = v) ∧
      v.IsNormalized ∧
      (v.isInt = true ↔ format.shift = 0 ∧ format.kind.HasSmallIntegers) ∧
      (format.shift = 0 → format.kind.numeral = .float → format.kind.bytes = 8 →
        ∃ word : UInt64, taken = .spell 8 word.toNat ∧
          v = if (⟨word⟩ : Binary64).isNaN then .nan else .double ⟨word⟩) ∧
      (∀ other position, position + format.kind.bytes ≤ other.length →
        (other.drop position).take format.kind.bytes = taken → format.read other position = v) ∧
      ∀ before after, format.read (before ++ data ++ after) (before.length + offset) = v) ∧
    (format.shift = 0 → format.kind.HasSmallIntegers → ∀ n,
      format.kind.Contains n → ∀ before after, ∃ k : Int32, k.toInt = n ∧
        format.read (before ++ .spell format.kind.bytes n ++ after) before.length = .int k) := by
  refine ⟨fun data offset => read_outside, fun data offset inside => ?_, ?_⟩
  · intro taken v
    have length : taken.length = format.kind.bytes := length_taken inside
    have read : v = format.decode taken := read_inside inside
    rw [read]
    refine ⟨fun w => decodes_iff length, isNormalized_decode format taken,
      ((decodes_iff length).2 rfl).isInt_iff, fun plain float eight => ?_, ?_, ?_⟩
    · exact decode_binary64 plain float eight (length.trans eight)
    · intro other position within same
      rw [read_inside within, same]
    · intro before after
      rw [read_append before after inside]
      exact read
  · intro plain small n contains before after
    exact read_spelled plain small contains before after

/-- Two bytes with a sign are read at the front of the data and not at its last byte, eight bytes are
the pattern of a double, with a shift two bytes are no integer, and the four bytes of 1.5 are 1.5, or
half of it with a shift by one. -/
theorem read_exact_two_bytes :
    let signed : NumberFormat := ⟨⟨.signed, 1⟩, 0, rfl, by decide, by decide⟩
    let double : NumberFormat := ⟨⟨.float, 3⟩, 0, rfl, by decide, by decide⟩
    let fraction : NumberFormat := ⟨⟨.unsigned, 1⟩, 8, rfl, by decide, by decide⟩
    let short : NumberFormat := ⟨⟨.float, 2⟩, 0, rfl, by decide, by decide⟩
    let half : NumberFormat := ⟨⟨.float, 2⟩, 1, rfl, by decide, by decide⟩
    signed.read [0xFF, 0xFE, 0x01] 2 = .nan ∧
      signed.read [0xFF, 0xFE, 0x01] 0 = .int (-257) ∧
      (∃ k : Int32, k.toInt = -257 ∧
        signed.read ([0x07] ++ Bytes.spell 2 (-257) ++ [0x01]) 1 = .int k) ∧
      (∃ word : UInt64, [0, 0, 0, 0, 0, 0, 0xF8, 0x3F] = Bytes.spell 8 word.toNat ∧
        double.read [0, 0, 0, 0, 0, 0, 0xF8, 0x3F] 0 =
          if (⟨word⟩ : Binary64).isNaN then .nan else .double ⟨word⟩) ∧
      fraction.read [0x80, 0x01] 0 =
        .ofBinary64 ((Binary64.ofInt 384).mul ⟨UInt64.ofNat ((1023 - 8) <<< 52)⟩) ∧
      ¬(fraction.read [0x80, 0x01] 0).isInt = true ∧
      short.read [0, 0, 0xC0, 0x3F] 0 = .double ⟨0x3FF8000000000000⟩ ∧
      half.read [0, 0, 0xC0, 0x3F] 0 = .double ⟨0x3FE8000000000000⟩ := by
  intro signed double fraction short half
  obtain ⟨outside, inside, back⟩ := read_exact signed
  have pattern :=
    ((read_exact double).2.1 [0, 0, 0, 0, 0, 0, 0xF8, 0x3F] 0 (by decide)).2.2.2.1 rfl rfl rfl
  obtain ⟨unique, -, isInt, -⟩ := (read_exact fraction).2.1 [0x80, 0x01] 0 (by decide)
  have plain := ((read_exact short).2.1 [0, 0, 0xC0, 0x3F] 0 (by decide)).1
  have shifted := ((read_exact half).2.1 [0, 0, 0xC0, 0x3F] 0 (by decide)).1
  have value : (⟨0x3FF8000000000000⟩ : Binary64).IsShort false 127 0x400000 :=
    .normal (by decide) (by decide) (by decide) (by decide) (by decide +kernel)
  refine ⟨outside _ 2 (by decide), ?_, ?_, pattern, ?_, ?_, ?_, ?_⟩
  · refine (((inside [0xFF, 0xFE, 0x01] 0 (by decide)).1 _).1 ?_).symm
    exact .int rfl (.inr ⟨rfl, by decide⟩) ⟨⟨by decide, by decide⟩, rfl⟩
  · exact back rfl (.inr ⟨rfl, by decide⟩) (-257) ⟨by decide, by decide⟩ [0x07] [0x01]
  · exact ((unique _).1 (.scaled (by decide) (.integer ⟨⟨by decide, by decide⟩, rfl⟩
      (Binary64.roundsInt_ofInt 384)))).symm
  · rw [isInt]
    rintro ⟨⟨⟩, -⟩
  · exact ((plain _).1 (.double rfl (fun small => small.integral rfl)
      (.binary32 rfl rfl (by decide) (by decide) (by decide) value))).symm
  · have scaled := ((shifted _).1 (.scaled (by decide)
      (.binary32 rfl rfl (by decide) (by decide) (by decide) value))).symm
    exact scaled.trans (by decide +kernel)

end NumberFormat
end NodeScript
